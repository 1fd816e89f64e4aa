/-
# Claim sets

A verifier that asks for optional claims is content with any of the claim sets of its query.  The
query names the claims by the identifiers of their schemas.  The check of a submission looks for
them among the keys of the proved claims, and it fails if a claim set is found instead of if none
is.

`claimSetSemantics_iff` says for which requests and credentials the outcome is the intended one
nevertheless: identifiers and keys are different texts as a rule, so nothing is found, unless there
is nothing to look for because all claims are optional.
-/
import OneCore.Dcql.Query
import OneCore.Openid4vp.Checks

namespace OneCore.Openid4vp

open List Presentation Schema
open Mdoc (MobileSecurityObject)

/-! ### The check -/

/-- All claims of a claim set are among the keys of the proved claims. -/
def foundByKeys (proved : List ValidatedProofClaimDTO) (claimSet : List Str) : Bool :=
  claimSet.all fun claim => proved.any fun p => p.proofInputClaim.schema.key = claim

def checkClaimSets (query : CredentialQuery) (proved : List ValidatedProofClaimDTO) :
    Except OpenID4VCError Unit :=
  ensure (¬query.claimSets.any fun claimSets => claimSets.any (foundByKeys proved))
    (.validationError "Claim set is not satisfied")

/-! ### What the check is for -/

/-- At least one of the claim sets has all of its claims among the proved ones.  Without claim sets
there is nothing to satisfy. -/
def SatisfiesClaimSet (query : Dcql.CredentialQuery) (proved : List ValidatedProofClaimDTO) :
    Prop :=
  ∀ claimSets ∈ query.claimSets, ∃ claimSet ∈ claimSets, ∀ id ∈ claimSet,
    ∃ p ∈ proved, p.proofInputClaim.schema.id.toList = id

/-- The check passes exactly if a claim set is satisfied, and it does pass. -/
def ClaimSetSemantics (query : Dcql.CredentialQuery) (proved : List ValidatedProofClaimDTO) :
    Prop :=
  (checkClaimSets query.forVerification proved = .ok () ↔ SatisfiesClaimSet query proved) ∧
    checkClaimSets query.forVerification proved = .ok ()

/-- No claim is optional, or there is a required claim whose identifier is not the key of a claim
that the credential supplies. -/
def IdsAreNoKeys (input : ProofInputSchema) (credential : DetailCredential) : Prop :=
  ∀ claims ∈ input.claimSchemas, (∀ c ∈ claims, c.required = true) ∨
    ∃ c ∈ claims, c.required = true ∧ ∀ c' ∈ claims,
      (resolveClaim c'.schema.key credential.claims.claims).isSome →
      c'.schema.key ≠ c.schema.id.toList

/-! ### The sets of a created query -/

section Created

variable {claims : List ProofInputClaimSchema} {input : ProofInputSchema}
  {credential : DetailCredential} {mso : Option MobileSecurityObject}
  {proved : List ValidatedProofClaimDTO}

lemma buildClaimSets_eq_none_iff :
    Dcql.buildClaimSets claims = none ↔ ∀ c ∈ claims, c.required = true := by
  simp only [Dcql.buildClaimSets]
  split
  · next h => simpa using h
  · next h => simpa using h

/-- The second set is contained in the first, so a set is satisfied exactly if the second is. -/
lemma exists_claimSet_iff {sets : List (List Str)} (h : Dcql.buildClaimSets claims = some sets)
    (P : Str → Prop) :
    (∃ claimSet ∈ sets, ∀ id ∈ claimSet, P id) ↔
      ∀ c ∈ claims, c.required = true → P c.schema.id.toList := by
  simp only [Dcql.buildClaimSets] at h
  split at h
  · cases h
  · cases h
    constructor
    · rintro ⟨claimSet, hset, hall⟩ c hc hrqd
      have hmem : c.schema.id.toList ∈
          (claims.filter fun cs => cs.required).map fun cs => cs.schema.id.toList :=
        mem_map.2 ⟨c, mem_filter.2 ⟨hc, hrqd⟩, rfl⟩
      rcases mem_pair.1 hset with rfl | rfl
      · exact hall _ (mem_append_left _ hmem)
      · exact hall _ hmem
    · intro hrqd
      refine ⟨_, mem_cons_of_mem _ mem_cons_self, fun id hid => ?_⟩
      obtain ⟨c, hc, rfl⟩ := mem_map.1 hid
      obtain ⟨hc, hr⟩ := mem_filter.1 hc
      exact hrqd c hc hr

/-- A credential whose claims were accepted supplies the required ones, and every claim that it
supplies is among the proved claims. -/
lemma exists_proved_iff (hcls : input.claimSchemas = some claims)
    (h : validateClaims credential input mso = .ok proved) (P : ProofInputClaimSchema → Prop) :
    (∃ p ∈ proved, P p.proofInputClaim) ↔ ∃ c ∈ claims,
      (resolveClaim c.schema.key credential.claims.claims).isSome ∧ P c := by
  constructor
  · rintro ⟨p, hp, hP⟩
    obtain ⟨claims', schema, hcls', -, c, hc, value, hval, rfl⟩ :=
      (mem_validateClaims h).1 hp
    obtain rfl := mem_unique hcls hcls'
    exact ⟨c, hc, by rw [hval]; rfl, hP⟩
  · rintro ⟨c, hc, hsome, hP⟩
    obtain ⟨value, hval⟩ := Option.isSome_iff_exists.1 hsome
    obtain ⟨_, -, schema, hsch, -⟩ : ∃ a, input.claimSchemas = some a ∧ ∃ b,
        input.credentialSchema = some b ∧ True := by
      simp only [validateClaims, ok_iffs] at h
      obtain ⟨a, ha, b, hb, -⟩ := h
      exact ⟨a, ha, b, hb, trivial⟩
    exact ⟨⟨c, credential, schema, value, mso⟩,
      (mem_validateClaims h).2 ⟨claims, schema, hcls, hsch, c, hc, value, hval, rfl⟩, hP⟩

lemma isSome_of_required (hcls : input.claimSchemas = some claims)
    (h : validateClaims credential input mso = .ok proved) {c : ProofInputClaimSchema}
    (hc : c ∈ claims) (hrqd : c.required = true) :
    (resolveClaim c.schema.key credential.claims.claims).isSome := by
  simp only [validateClaims, ok_iffs] at h
  obtain ⟨claims', hcls', _, -, hloop⟩ := h
  obtain rfl := mem_unique hcls hcls'
  obtain ⟨bs, hbs⟩ := Except.exists_of_flatMapM_eq_ok hloop hc
  cases hrsv : resolveClaim c.schema.key credential.claims.claims with
  | some value => rfl
  | none => simp [hrsv, hrqd] at hbs

/-- **Claim sets.**  For every input schema, the query that is created for it and every credential
that supplies the required claims: the check passes exactly if a claim set is satisfied, and so
passes, if and only if no claim is optional or a required claim has an identifier that is not the
key of a supplied claim. -/
theorem claimSetSemantics_iff (env : Dcql.QueryEnvironment) {query : Dcql.CredentialQuery}
    (hcreated : Dcql.createCredentialQuery env input = .ok query)
    (hvalid : validateClaims credential input mso = .ok proved) :
    ClaimSetSemantics query proved ↔ IdsAreNoKeys input credential := by
  simp only [Dcql.createCredentialQuery, ok_iffs] at hcreated
  obtain ⟨_, -, claims, hcls, _, -, _, -, hquery⟩ := hcreated
  have hq : query.forVerification.claimSets = Dcql.buildClaimSets claims := by
    rw [← hquery]
    rfl
  -- a claim set is always satisfied: all required claims are supplied
  have hsati : SatisfiesClaimSet query proved := by
    intro sets hmem
    refine (exists_claimSet_iff (hq.symm.trans hmem) _).2 fun c hc hrqd => ?_
    exact (exists_proved_iff hcls hvalid fun c' => c'.schema.id.toList = c.schema.id.toList).2
      ⟨c, hc, isSome_of_required hcls hvalid hc hrqd, rfl⟩
  have hsema : ClaimSetSemantics query proved ↔
      checkClaimSets query.forVerification proved = .ok () := by
    simp [ClaimSetSemantics, hsati]
  rw [hsema, checkClaimSets, ensure_eq_ok]
  rw [hq]
  constructor
  · intro hpass claims' hcls'
    obtain rfl := mem_unique hcls hcls'
    cases hblt : Dcql.buildClaimSets claims with
    | none => exact .inl (buildClaimSets_eq_none_iff.1 hblt)
    | some sets =>
      right
      by_contra hnone
      refine hpass ?_
      rw [hblt, Option.any_some]
      simp only [foundByKeys, all_eq_true, any_eq_true, decide_eq_true_eq]
      refine (exists_claimSet_iff hblt _).2 fun c hc hrqd => ?_
      refine (exists_proved_iff hcls hvalid fun c' => c'.schema.key = c.schema.id.toList).2 ?_
      by_contra hmiss
      exact hnone ⟨c, hc, hrqd, fun c' hc' hsome hkey => hmiss ⟨c', hc', hsome, hkey⟩⟩
  · intro hkeys hfnd
    cases hblt : Dcql.buildClaimSets claims with
    | none => simp [hblt] at hfnd
    | some sets =>
      rw [hblt, Option.any_some] at hfnd
      simp only [foundByKeys, all_eq_true, any_eq_true, decide_eq_true_eq] at hfnd
      rcases hkeys claims hcls with hrqd | ⟨c, hc, hrqd, hno⟩
      · rw [buildClaimSets_eq_none_iff.2 hrqd] at hblt
        cases hblt
      · obtain ⟨c', hc', hsome, hkey⟩ := (exists_proved_iff hcls hvalid
          fun c' => c'.schema.key = c.schema.id.toList).1
            ((exists_claimSet_iff hblt _).1 hfnd c hc hrqd)
        exact hno c' hc' hsome hkey

end Created

/-! ### Required and optional claims -/

section Sample

def sampleQueryEnvironment : Dcql.QueryEnvironment :=
  ⟨fun _ => some [], fun _ => .ok .jwt, fun schema => schema.schemaId⟩

def sampleClaims (required : Bool) (more : Bool) : List ProofInputClaimSchema :=
  ⟨sampleClaimSchema, required⟩ ::
    if more then [⟨⟨"d", ['b'], "BOOLEAN", false, false, true⟩, false⟩] else []

def sampleInputOf (claims : List ProofInputClaimSchema) : ProofInputSchema :=
  { sampleInput "JWT" with claimSchemas := some claims }

def sampleDetail : DetailCredential := sampleCredential (.did "did:key:i") (.did "did:key:a")

/-- With a required claim whose identifier is not a key, the check does what it is for. -/
theorem claimSetSemantics_sample :
    ∃ query proved, Dcql.createCredentialQuery sampleQueryEnvironment
        (sampleInputOf (sampleClaims true true)) = .ok query ∧
      validateClaims sampleDetail (sampleInputOf (sampleClaims true true)) none = .ok proved ∧
      ClaimSetSemantics query proved := by
  have hvalid : validateClaims sampleDetail (sampleInputOf (sampleClaims true true)) none =
    .ok _ := rfl
  refine ⟨_, _, rfl, hvalid, (claimSetSemantics_iff sampleQueryEnvironment rfl hvalid).2 ?_⟩
  rintro claims ⟨⟩
  refine .inr ⟨_, mem_cons_self, rfl, fun c' hc' _ => ?_⟩
  rcases mem_pair.1 hc' with rfl | rfl <;> decide

/-- A request for optional claims only is refused whatever is presented: the empty claim set is
satisfied, and the check fails. -/
theorem satisfied_claimSet_refused :
    ∃ query proved, Dcql.createCredentialQuery sampleQueryEnvironment
        (sampleInputOf (sampleClaims false false)) = .ok query ∧
      validateClaims sampleDetail (sampleInputOf (sampleClaims false false)) none = .ok proved ∧
      SatisfiesClaimSet query proved ∧
      checkClaimSets query.forVerification proved =
        .error (.validationError "Claim set is not satisfied") := by
  refine ⟨_, _, rfl, rfl, ?_, rfl⟩
  rintro claimSets ⟨⟩
  exact ⟨_, mem_cons_of_mem _ mem_cons_self, by simp [sampleClaims]⟩

end Sample

end OneCore.Openid4vp
