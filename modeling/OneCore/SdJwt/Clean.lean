/-
# What is left of the digests

After the disclosures are put in their places, nothing should tell of the claims that were not
disclosed: no list of digests in an object, and no digest in the place of an element.  The expansion
takes the lists out of all objects that it meets, but it leaves the digest of an element where it is
if there is no disclosure for it.
-/
import OneCore.SdJwt.Disclosures

namespace OneCore.SdJwt

open List
open SdJwtVcFormatter (extendClaims)

/-! ### Claims without digests -/

def innerClaims : CredentialClaim → List CredentialClaim
  | .mk _ _ (.object map) => map.map Prod.snd
  | .mk _ _ (.array array) => array
  | _ => []

/-- An object without digests, or an array without digests in the places of its elements. -/
def LocallyClean : CredentialClaim → Prop
  | .mk _ _ (.object map) => ∀ e ∈ map, e.1 ≠ selectiveDisclosureMarker
  | .mk _ _ (.array array) => ∀ e ∈ array, elementSdHash e = none
  | _ => True

/-- There is no digest anywhere in the claim. -/
inductive Clean : CredentialClaim → Prop
  | mk {claim : CredentialClaim} (here : LocallyClean claim)
      (inside : ∀ e ∈ innerClaims claim, Clean e) : Clean claim

/-! ### The claims that the expansion meets -/

variable (disclosures : List HashedDisclosure)

/-- One level of the expansion. -/
def expandLevel : CredentialClaim → Except FormatterError CredentialClaim
  | .mk sd md (.object map) => do
    let values ← gatherInsertablesFromObject disclosures map
    let map := map.filter fun entry => entry.1 ≠ selectiveDisclosureMarker
    return .mk sd md (.object (extendClaims map values))
  | .mk sd md (.array array) => do
    return .mk sd md (.array (← expandArrayElementsInPlace disclosures array))
  | claim => .ok claim

/-- The claims inside a claim when the expansion has come to them, with their own level expanded. -/
inductive Met : CredentialClaim → CredentialClaim → Prop
  | here {claim level : CredentialClaim} (h : expandLevel disclosures claim = .ok level) :
      Met claim level
  | inside {claim level e level' : CredentialClaim} (h : expandLevel disclosures claim = .ok level)
      (he : e ∈ innerClaims level) (hmet : Met e level') : Met claim level'

/-- No field is disclosed under the key of the digests, and each element is disclosed, and is not
itself of the form of a digest. -/
def Settled : CredentialClaim → Prop
  | .mk _ _ (.object map) => ∀ e ∈ map, e.1 ≠ selectiveDisclosureMarker
  | .mk _ _ (.array array) => ∀ e ∈ array, ∀ level, expandLevel disclosures e = .ok level →
      elementSdHash level = none
  | _ => True

variable {disclosures} {bound : Nat} {claim claim' : CredentialClaim}

lemma claimAsStr_of_expand (h : recursivelyExpandDisclosures disclosures bound claim = .ok claim') :
    claimAsStr claim' = claimAsStr claim := by
  obtain _ | bound := bound
  · cases h
  · obtain ⟨sd, md, value⟩ := claim
    cases value with
    | object | array =>
      simp only [recursivelyExpandDisclosures, ok_iffs] at h
      obtain ⟨_, -, _, -, rfl⟩ := h
      rfl
    | bool | number | string =>
      cases h
      rfl

lemma forall₂_of_expandFields {map map' : List (Str × CredentialClaim)}
    (h : map.mapM (fun e => do
      return (e.1, ← recursivelyExpandDisclosures disclosures bound e.2)) = .ok map') :
    Forall₂ (fun e e' => e'.1 = e.1 ∧
      recursivelyExpandDisclosures disclosures bound e.2 = .ok e'.2) map map' := by
  refine (mapM_eq_ok.1 h).imp fun e e' he => ?_
  obtain ⟨_, hexp, heq⟩ := bind_eq_ok.1 he
  obtain rfl := pure_eq_ok.1 heq
  exact ⟨rfl, hexp⟩

lemma elementSdHash_object_congr {map map' : List (Str × CredentialClaim)} (sd md : Bool)
    (h : Forall₂ (fun e e' => e'.1 = e.1 ∧
      recursivelyExpandDisclosures disclosures bound e.2 = .ok e'.2) map map') :
    elementSdHash (.mk sd md (.object map')) = elementSdHash (.mk sd md (.object map)) := by
  cases h with
  | nil => rfl
  | cons he hes =>
    cases hes with
    | nil => simp only [elementSdHash, he.1, claimAsStr_of_expand he.2]
    | cons => rfl

/-- The expansion of a claim is that of its own level, and then of what is inside it. -/
lemma exists_expandLevel
    (h : recursivelyExpandDisclosures disclosures bound claim = .ok claim') :
    ∃ level, expandLevel disclosures claim = .ok level ∧ elementSdHash claim' = elementSdHash level ∧
      (LocallyClean claim' ↔ Settled disclosures level) ∧
      ∃ bound' < bound, Forall₂ (fun e e' => recursivelyExpandDisclosures disclosures bound' e = .ok e')
        (innerClaims level) (innerClaims claim') := by
  induction bound generalizing claim claim' with
  | zero => cases h
  | succ bound ih =>
    obtain ⟨sd, md, value⟩ := claim
    cases value with
    | object map =>
      simp only [recursivelyExpandDisclosures, ok_iffs] at h
      obtain ⟨values, hvals, map', hmap, rfl⟩ := h
      have hall := forall₂_of_expandFields hmap
      refine ⟨_, bind_eq_ok.2 ⟨values, hvals, rfl⟩, elementSdHash_object_congr sd md hall, ?_, bound,
        Nat.lt_succ_self _, ?_⟩
      · constructor
        · intro hclean e he
          obtain ⟨e', he', heq, -⟩ := hall.exists_of_mem_left he
          exact heq ▸ hclean e' he'
        · intro hclean e' he'
          obtain ⟨e, he, heq, -⟩ := hall.exists_of_mem_right he'
          exact heq ▸ hclean e he
      · exact forall₂_map_left_iff.2 (forall₂_map_right_iff.2 (hall.imp fun _ _ h => h.2))
    | array array =>
      simp only [recursivelyExpandDisclosures, ok_iffs] at h
      obtain ⟨elements, helem, array', harr, rfl⟩ := h
      have hall := mapM_eq_ok.1 harr
      refine ⟨_, bind_eq_ok.2 ⟨elements, helem, rfl⟩, rfl, ?_, bound, Nat.lt_succ_self _, hall⟩
      constructor
      · intro hclean e he level hlev
        obtain ⟨e', he', hexp⟩ := hall.exists_of_mem_left he
        obtain ⟨level', hlev', heq, -⟩ := ih hexp
        rw [ok_unique hlev hlev', ← heq]
        exact hclean e' he'
      · intro hclean e' he'
        obtain ⟨e, he, hexp⟩ := hall.exists_of_mem_right he'
        obtain ⟨level, hlev, heq, -⟩ := ih hexp
        exact heq.trans (hclean e he level hlev)
    | bool | number | string =>
      cases h
      exact ⟨_, rfl, rfl, Iff.rfl, bound, Nat.lt_succ_self _, .nil⟩

/-- An array with one element, which was not disclosed. -/
def undisclosedElement : CredentialClaim :=
  .mk false false (.array [.mk false false (.object
    [(selectiveDisclosureArrayMarker, .mk false false (.string ['d']))])])

/-- The disclosure of the element. -/
def elementDisclosure : HashedDisclosure := ⟨⟨['s'], none, .bool true, [], []⟩, ['d'], ['a']⟩

end OneCore.SdJwt
