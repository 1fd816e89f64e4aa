/-
# Who signed a presentation

For each credential of an accepted presentation there is a signature of the presenter that was
checked with some key.  `VerifiedBy` names the source of that key, formatter by formatter.  It
agrees with the identifier that the presentation counts as issued by: a DID is the one whose
document the key was looked up in, and a key is the one that the signature was checked with.
-/
import OneCore.Presentation.Formatters

namespace OneCore.Presentation

open Option
open Mdoc (ExtractedPresentation)

variable (env : FormatterEnvironment) (verification : TokenVerifier)

/-- The presenter's signature for a credential of the presentation is the given one, and it has
been checked. -/
inductive VerifiedBy (context : ExtractPresentationCtx) (presentation : String) :
    FormatType → String → SignedMessage → Prop
  | jwt {token : String} {decomposed : DecomposedToken VP} {signed : SignedMessage} :
      env.decomposeVp presentation = .ok decomposed →
      Jwt.selfSignedMessage env.jose decomposed = .ok signed →
      signed.check verification = .ok () →
      VerifiedBy context presentation .jwt token signed
  | sdJwtWrapped {token : String} {decomposed : DecomposedToken Sdvp} {signed : SignedMessage} :
      env.decomposeSdvp presentation = .ok decomposed →
      Jwt.selfSignedMessage env.jose decomposed = .ok signed →
      signed.check verification = .ok () →
      VerifiedBy context presentation .sdJwt token signed
  | keyBinding {format : FormatType} {parts : SdJwtToken} {cnf : PublicJwk}
      {keyBindingToken : String} {decomposed : DecomposedToken KeyBindingPayload}
      {signed : SignedMessage} :
      format = .sdJwtVc ∨ format = .sdJwt ∧ (∀ jwt,
        Jwt.buildFromToken env.jose env.decomposeSdvp verification presentation ≠ .ok jwt) →
      env.decomposeSdJwt presentation = .ok parts → parts.proofOfPossessionKey = some cnf →
      parts.keyBindingToken = some keyBindingToken →
      env.decomposeKeyBinding keyBindingToken = .ok decomposed →
      Jwt.signedMessage env.jose decomposed (.jwk cnf) = .ok signed →
      signed.check verification = .ok () →
      VerifiedBy context presentation format presentation signed
  | ldp {token : String} {decoded : LdPresentation} {signed : SignedMessage} :
      env.decodeLdPresentation presentation = .ok decoded →
      LdpVp.presentationSignedMessage env decoded = .ok signed →
      signed.check verification = .ok () →
      VerifiedBy context presentation .jsonLdClassic token signed
  | mdoc {token : String} {documents : List Mdoc.Document} {document : Mdoc.Document}
      {sessionTranscript : Bytes} {nonce : Option String} {jwk : PublicJwk}
      {signature : Mdoc.CoseSign1} {signed : SignedMessage} :
      env.mdoc.decodeDeviceResponse presentation = .ok (some documents) →
      env.extractPresentationContext context = .ok (sessionTranscript, nonce) →
      document ∈ documents →
      env.mdoc.encodeIssuerSigned document.issuerSigned = .ok token →
      Mdoc.tryExtractHolderPublicKey env.mdoc.toEnvironment document.issuerSigned.issuerAuth =
        .ok jwk →
      document.deviceSignature = some signature →
      Mdoc.deviceSignedMessage env.mdoc sessionTranscript document.docType signature jwk =
        .ok signed →
      signed.check verification = .ok () →
      VerifiedBy context presentation .mdoc token signed

variable {context : ExtractPresentationCtx} {signed : SignedMessage}

lemma VerifiedBy.check {presentation token : String} {format : FormatType}
    (h : VerifiedBy env verification context presentation format token signed) :
    signed.check verification = .ok () := by
  cases h <;> assumption

/-- The identifier that a presentation counts as issued by is where the key was taken from. -/
inductive SignerOf : IdentifierDetails → PublicKeySource → Prop
  | did (did : String) (keyId : Option String) : SignerOf (.did did) (.did did keyId)
  | key (jwk : PublicJwk) : SignerOf (.key jwk) (.jwk jwk)

/-- The credential itself names the key of its holder. -/
inductive CarriesKey (env : FormatterEnvironment) (token : String) : PublicJwk → Prop
  | cnf {parts : SdJwtToken} {jwk : PublicJwk} : env.decomposeSdJwt token = .ok parts →
      parts.proofOfPossessionKey = some jwk → CarriesKey env token jwk
  | device {issuerSigned : Mdoc.IssuerSigned} {jwk : PublicJwk} :
      env.mdoc.decodeIssuerSigned token = .ok issuerSigned →
      Mdoc.tryExtractHolderPublicKey env.mdoc.toEnvironment issuerSigned.issuerAuth = .ok jwk →
      CarriesKey env token jwk

/-- The tokens of the documents in a device response decode to the documents again. -/
def RoundTrip : Prop :=
  ∀ presentation documents, env.mdoc.decodeDeviceResponse presentation = .ok (some documents) →
    ∀ document ∈ documents, ∀ token,
      env.mdoc.encodeIssuerSigned document.issuerSigned = .ok token →
        env.mdoc.decodeIssuerSigned token = .ok document.issuerSigned

/-! ### The signer of each kind of presentation -/

section Signer

variable {env verification} {presentation : String} {p : ExtractedPresentation}

variable {issuer : IdentifierDetails}

lemma JwtVp.signerOf {decomposed : DecomposedToken VP}
    (hsgn : Jwt.selfSignedMessage env.jose decomposed = .ok signed)
    (h : JwtVp.issuer env (Jwt.issuerOf env.jose decomposed) decomposed.header.jwk = .ok issuer) :
    SignerOf issuer signed.source := by
  obtain ⟨did, hdid, hsrc⟩ := Jwt.source_of_issuer env.jose hsgn
  unfold JwtVp.issuer at h
  cases hissuer : Jwt.issuerOf env.jose decomposed with
  | none =>
    -- the presentation names its key
    rw [hissuer] at h hdid
    obtain rfl : did = none := by simpa [Jwt.issuerDid, eq_comm] using hdid
    cases hjwk : decomposed.header.jwk with
    | none => simp [hjwk] at h
    | some jwk =>
      obtain rfl : issuer = .key jwk := by simpa [hjwk, eq_comm] using h
      rw [Jwt.publicKeySource_none_jwk hjwk hsrc]
      exact .key jwk
  | some iss =>
    -- the key is looked up in the document of a DID
    rw [hissuer] at h hdid
    cases hjwk : decomposed.header.jwk with
    | some jwk => simp [hjwk] at h
    | none =>
      simp only [hjwk, Jwt.issuerDid, mapError_eq_ok, Except.map_eq_ok] at h hdid
      obtain ⟨d, hd, rfl⟩ := h
      obtain ⟨d', hd', rfl⟩ := hdid
      obtain rfl := ok_unique hd hd'
      rw [Jwt.publicKeySource_some hsrc]
      exact .did d _

lemma JwtVp.extractPresentation_eq_ok
    (h : JwtVp.extractPresentation env verification presentation = .ok p) :
    ∃ decomposed signed issuer, env.decomposeVp presentation = .ok decomposed ∧
      Jwt.selfSignedMessage env.jose decomposed = .ok signed ∧
      signed.check verification = .ok () ∧ p.issuer = some issuer ∧
      SignerOf issuer signed.source := by
  simp only [JwtVp.extractPresentation, ok_iffs] at h
  obtain ⟨_, hbld, _, -, issuer, hissuer, rfl⟩ := h
  obtain ⟨decomposed, signed, hdec, hsgn, hchk, rfl⟩ :=
    (Jwt.buildFromToken_eq_ok_iff env.jose).1 hbld
  exact ⟨decomposed, signed, issuer, hdec, hsgn, hchk, rfl, JwtVp.signerOf hsgn hissuer⟩

/-- What the formatter of SD-JWTs has checked in a presentation that is wrapped in a JSON web
token.  If the token has no issuer then neither has the presentation. -/
lemma SdJwt.wrappedPresentation_eq_ok {decomposed : DecomposedToken Sdvp}
    (hsgn : Jwt.selfSignedMessage env.jose decomposed = .ok signed)
    (h : SdJwt.wrappedPresentation env
      { decomposed.payload with issuer := Jwt.issuerOf env.jose decomposed } = .ok p) (hissuer : p.issuer = some issuer) :
    SignerOf issuer signed.source := by
  obtain ⟨did, hdid, hsrc⟩ := Jwt.source_of_issuer env.jose hsgn
  simp only [SdJwt.wrappedPresentation, ok_iffs] at h
  obtain ⟨did', hdid', rfl⟩ := h
  obtain rfl := ok_unique hdid hdid'
  cases did with
  | none => simp at hissuer
  | some d =>
    obtain rfl : issuer = .did d := by simpa [eq_comm] using hissuer
    rw [Jwt.publicKeySource_some hsrc]
    exact .did d _

lemma LdpVp.extractPresentation_eq_ok
    (h : LdpVp.extractPresentation env verification presentation = .ok p) :
    ∃ decoded signed issuer, env.decodeLdPresentation presentation = .ok decoded ∧
      LdpVp.presentationSignedMessage env decoded = .ok signed ∧
      signed.check verification = .ok () ∧ p.issuer = some issuer ∧
      SignerOf issuer signed.source := by
  simp only [LdpVp.extractPresentation, LdpVp.verifyPresentationSignature, ok_iffs] at h
  obtain ⟨decoded, hdec, ⟨⟩, ⟨signed, hsgn, hchk⟩, ⟨⟩, -, did, hdid, rfl⟩ := h
  refine ⟨decoded, signed, .did did, hdec, hsgn, hchk, rfl, ?_⟩
  simp only [LdpVp.presentationSignedMessage, LdpVp.proofSignedMessage, ok_iffs] at hsgn
  obtain ⟨proof, -, _, -, _, -, did', hdid', ⟨⟩, -, _, -, _, -, rfl⟩ := hsgn
  obtain rfl := ok_unique hdid hdid'
  exact .did did _

/-- What a key binding has established: the token is signed with the key that the credential
names. -/
lemma SdJwt.keyBinding_eq_ok {parts : SdJwtToken}
    {missing : String} {r : PublicJwk × JWTPayload KeyBindingPayload}
    (hctx : (SdJwt.holderBindingCtx context).isSome)
    (h : SdJwt.keyBinding env verification presentation parts context missing = .ok r) :
    parts.proofOfPossessionKey = some r.1 ∧ ∃ keyBindingToken decomposed signed,
      parts.keyBindingToken = some keyBindingToken ∧
      env.decomposeKeyBinding keyBindingToken = .ok decomposed ∧
      Jwt.signedMessage env.jose decomposed (.jwk r.1) = .ok signed ∧
      signed.check verification = .ok () := by
  obtain ⟨ctx, hctx⟩ := isSome_iff_exists.1 hctx
  simp only [SdJwt.keyBinding, SdJwt.verifyHolderBinding, hctx, ok_iffs] at h
  obtain ⟨cnf, hcnf, _, -, payload, ⟨kb, hkb, decomposed, hdec, ⟨⟩, hvfy, -⟩, rfl⟩ := h
  obtain ⟨signed, hsgn, hchk⟩ := bind_eq_ok.1 hvfy
  exact ⟨hcnf, kb, decomposed, signed, hkb, hdec, hsgn, hchk⟩

lemma mdoc_extractPresentation_eq_ok
    (h : Mdoc.extractPresentation (mdocEnvironment env verification) presentation
      (env.extractPresentationContext context) context.trustedCerts context.issuanceDate
      context.expirationDate = .ok p) {token : String} (htok : token ∈ p.credentials) :
    ∃ signed, VerifiedBy env verification context presentation .mdoc token signed := by
  obtain ⟨documents, transcript, nonce, extracted, hdec, hctx, hall, rfl⟩ :=
    (Mdoc.extractPresentation_eq_ok_iff _).1 h
  obtain ⟨⟨jwk, token⟩, hmem, rfl⟩ := List.mem_map.1 htok
  obtain ⟨document, hdoc, hext⟩ := hall.exists_of_mem_right hmem
  obtain ⟨-, hjwk, ⟨signature, hsig, hdevice⟩, henc⟩ :=
    Mdoc.extractDocument_eq_ok _ hext
  obtain ⟨signed, hsgn, hchk⟩ := bind_eq_ok.1 hdevice
  exact ⟨signed, .mdoc hdec hctx hdoc henc hjwk hsig hsgn (mapError_eq_ok.1 hchk)⟩

end Signer

/-! ### The signer of any presentation -/

section AnyFormat

variable {env verification} {presentation token : String} {p : ExtractedPresentation}
   {format : FormatType}
  {extract : String → ExtractPresentationCtx → Except FormatterError ExtractedPresentation}
  (hfmt : extractPresentation? env verification format = some extract)
  (h : extract presentation context = .ok p)
include hfmt h

/-- Every credential of an accepted presentation comes with a signature that has been checked,
provided that the context has what a key binding token must repeat. -/
lemma exists_verifiedBy (hctx : (SdJwt.holderBindingCtx context).isSome) (htok : token ∈ p.credentials) :
    ∃ signed, VerifiedBy env verification context presentation format token signed := by
  cases format with
  | jwt =>
    cases hfmt
    obtain ⟨decomposed, signed, -, hdeco, hsgn, hchk, -⟩ :=
      JwtVp.extractPresentation_eq_ok h
    exact ⟨signed, .jwt hdeco hsgn hchk⟩
  | sdJwt =>
    cases hfmt
    unfold SdJwt.extractPresentation at h
    cases hbld : Jwt.buildFromToken env.jose env.decomposeSdvp verification presentation with
    | ok jwt =>
      obtain ⟨decomposed, signed, hdeco, hsgn, hchk, -⟩ :=
        (Jwt.buildFromToken_eq_ok_iff env.jose).1 hbld
      exact ⟨signed, .sdJwtWrapped hdeco hsgn hchk⟩
    | error e =>
      simp only [hbld, SdJwt.extractPresentationCredential, ok_iffs] at h
      obtain ⟨parts, hparts, ⟨⟩, -, _, -, r, hbnd, rfl⟩ := h
      obtain rfl := List.mem_singleton.1 htok
      obtain ⟨hcnf, kb, decomposed, signed, hkb, hdeco, hsgn, hchk⟩ :=
        SdJwt.keyBinding_eq_ok hctx hbnd
      exact ⟨signed, .keyBinding (Or.inr ⟨rfl, by simp [hbld]⟩) hparts hcnf hkb hdeco hsgn hchk⟩
  | sdJwtVc =>
    cases hfmt
    simp only [SdJwt.extractPresentationVc, ok_iffs] at h
    obtain ⟨parts, hparts, ⟨⟩, -, r, hbnd, rfl⟩ := h
    obtain rfl := List.mem_singleton.1 htok
    obtain ⟨hcnf, kb, decomposed, signed, hkb, hdeco, hsgn, hchk⟩ :=
      SdJwt.keyBinding_eq_ok hctx hbnd
    exact ⟨signed, .keyBinding (Or.inl rfl) hparts hcnf hkb hdeco hsgn hchk⟩
  | jsonLdClassic =>
    cases hfmt
    obtain ⟨decoded, signed, -, hdec, hsgn, hchk, -⟩ := LdpVp.extractPresentation_eq_ok h
    exact ⟨signed, .ldp hdec hsgn hchk⟩
  | jsonLdBbsPlus => cases hfmt
  | mdoc =>
    cases hfmt
    exact mdoc_extractPresentation_eq_ok h htok

/-- The key of such a signature is that of the identifier which the presentation counts as issued
by, or else one that the credential itself names. -/
lemma signer_of_verifiedBy (hround : RoundTrip env) {issuer : IdentifierDetails}
    (hissuer : p.issuer = some issuer)
    (hv : VerifiedBy env verification context presentation format token signed) :
    SignerOf issuer signed.source ∨
      ∃ jwk, signed.source = .jwk jwk ∧ CarriesKey env token jwk := by
  cases hv with
  | jwt hdeco hsgn _ =>
    cases hfmt
    obtain ⟨decomposed, signed', issuer', hdeco', hsgn', -, hissuer', hsgr⟩ :=
      JwtVp.extractPresentation_eq_ok h
    obtain rfl := ok_unique hdeco hdeco'
    obtain rfl := ok_unique hsgn hsgn'
    obtain rfl := mem_unique hissuer hissuer'
    exact Or.inl hsgr
  | sdJwtWrapped hdeco hsgn hchk =>
    cases hfmt
    have hbld := (Jwt.buildFromToken_eq_ok_iff env.jose).2 ⟨_, _, hdeco, hsgn, hchk, rfl⟩
    simp only [SdJwt.extractPresentation, hbld] at h
    exact Or.inl (SdJwt.wrappedPresentation_eq_ok hsgn h hissuer)
  | keyBinding _ hparts hcnf _ _ hsgn _ =>
    obtain ⟨_, -, ⟨⟩⟩ := bind_eq_ok.1 hsgn
    exact Or.inr ⟨_, rfl, .cnf hparts hcnf⟩
  | ldp hdec hsgn _ =>
    cases hfmt
    obtain ⟨decoded, signed', issuer', hdec', hsgn', -, hissuer', hsgr⟩ :=
      LdpVp.extractPresentation_eq_ok h
    obtain rfl := ok_unique hdec hdec'
    obtain rfl := ok_unique hsgn hsgn'
    obtain rfl := mem_unique hissuer hissuer'
    exact Or.inl hsgr
  | mdoc hdec _ hmem henc hjwk _ hsgn _ =>
    obtain ⟨_, -, ⟨⟩⟩ := bind_eq_ok.1 hsgn
    exact Or.inr ⟨_, rfl, .device (hround _ _ hdec _ hmem _ henc) hjwk⟩

end AnyFormat

end OneCore.Presentation
