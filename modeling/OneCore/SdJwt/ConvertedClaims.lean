/-
# The claims that are converted

Pictures are sent without the prefix that says how they are encoded.  It is taken off when a credential is
formatted, and put back when it is read.  The conversion takes the segments of a path from its end but
looks them up from the root: it comes to the claim at the reversed path.
-/
import OneCore.SdJwt.VcFormatter

namespace OneCore.SdJwtVcFormatter

open List Option

/-- The value that the keys lead to from a claim, through objects.  Of an object only its marks are given;
its fields are at the paths below. -/
def valueAt : List Str → CredentialClaim → Option CredentialClaim
  | [], .mk sd md (.object _) => some (.mk sd md (.object []))
  | [], claim => some claim
  | key :: path, .mk _ _ (.object fields) => (fields.lookup key).bind (valueAt path)
  | _ :: _, _ => none

def converted (process : Str → Str) : CredentialClaim → CredentialClaim
  | .mk sd md (.string s) => .mk sd md (.string (process s))
  | claim => claim

/-- The value at a path is converted, if there is one, and no other value is touched. -/
structure TouchesOnly (process : Str → Str) (path : List Str) (claim claim' : CredentialClaim) : Prop where
  converts : valueAt path claim' = (valueAt path claim).map (converted process)
  keeps : ∀ q ≠ path, valueAt q claim' = valueAt q claim

/-- There is nothing to convert at a path. -/
def Unaffected (process : Str → Str) (path : List Str) (claim : CredentialClaim) : Prop :=
  (valueAt path claim).map (converted process) = valueAt path claim

/-- What the conversion makes of a claim on the way that it takes. -/
def convertAt (process : Str → Str) : List Str → CredentialClaim → CredentialClaim
  | [], claim => converted process claim
  | path, .mk sd md (.object fields) => .mk sd md (.object (postProcessFromEnd process path fields))
  | _, claim => claim

variable {process : Str → Str} {path : List Str}

lemma lookup_postProcessFromEnd (key k : Str) (fields : List (Str × CredentialClaim)) :
    (postProcessFromEnd process (key :: path) fields).lookup k =
      if k = key then (fields.lookup key).map (convertAt process path) else fields.lookup k := by
  have hself : ∀ o, fields.lookup key = o → fields.lookup k = if k = key then o else fields.lookup k := by
    rintro o rfl
    split
    · next hk => rw [hk]
    · rfl
  rw [postProcessFromEnd]
  cases hkey : fields.lookup key with
  | none => exact hself none hkey
  | some c =>
    obtain ⟨sd, md, value⟩ := c
    cases path with
    | nil =>
      cases value with
      | string => exact lookup_mapInsert _ _ _ _
      | bool | number | array | object => exact hself _ hkey
    | cons =>
      cases value with
      | object => exact lookup_mapInsert _ _ _ _
      | bool | number | array | string => exact hself _ hkey

/-- The conversion touches the value at the end of its way and no other. -/
lemma valueAt_convertAt (q : List Str) (claim : CredentialClaim) :
    valueAt q (convertAt process path claim) =
      if q = path then (valueAt path claim).map (converted process) else valueAt q claim := by
  induction path generalizing q claim with
  | nil =>
    obtain ⟨sd, md, value⟩ := claim
    cases q <;> cases value <;> rfl
  | cons key path ih =>
    obtain ⟨sd, md, value⟩ := claim
    cases q with
    | nil => cases value <;> rfl
    | cons k q =>
      cases value with
      | bool | number | array | string => simp [convertAt, valueAt]
      | object fields =>
        simp only [convertAt, valueAt, lookup_postProcessFromEnd, cons.injEq]
        by_cases hk : k = key
        · subst hk
          cases fields.lookup k with
          | none => simp
          | some c => simpa using ih q c
        · simp [hk]

/-- The conversion touches the value at the path and no other, exactly if the path is its own reverse or
there is nothing to convert at the path and at its reverse. -/
theorem touchesOnly_iff (process : Str → Str) (path : List Str) (claims : List (Str × CredentialClaim)) :
    TouchesOnly process path (.mk false false (.object claims))
        (.mk false false (.object (postProcessClaims path claims process))) ↔
      path = path.reverse ∨ Unaffected process path (.mk false false (.object claims)) ∧
        Unaffected process path.reverse (.mk false false (.object claims)) := by
  generalize hroot : CredentialClaim.mk false false (.object claims) = root
  have hconv : CredentialClaim.mk false false (.object (postProcessClaims path claims process)) =
      convertAt process path.reverse root := by
    subst hroot
    rw [postProcessClaims]
    cases path.reverse <;> rfl
  rw [hconv]
  by_cases hrev : path = path.reverse
  · refine iff_of_true ⟨?_, fun q hq => ?_⟩ (.inl hrev)
    · rw [valueAt_convertAt, if_pos hrev, ← hrev]
    · rw [valueAt_convertAt, if_neg (hrev ▸ hq)]
  · rw [or_iff_right hrev]
    constructor
    · intro h
      have hpath := h.converts
      have hend := h.keeps path.reverse (Ne.symm hrev)
      rw [valueAt_convertAt, if_neg hrev] at hpath
      rw [valueAt_convertAt, if_pos rfl] at hend
      exact ⟨hpath.symm, hend⟩
    · rintro ⟨hpath, hend⟩
      refine ⟨?_, fun q hq => ?_⟩
      · rw [valueAt_convertAt, if_neg hrev, hpath]
      · rw [valueAt_convertAt]
        split
        · next heq => rw [heq, hend]
        · rfl

/-- A picture inside of another claim stays as it is. -/
theorem nested_picture_not_converted : ¬TouchesOnly addDataUriPrefix [['a'], ['b']]
    (.mk false false (.object [(['a'], .mk false false (.object [(['b'], .mk false false (.string []))]))]))
    (.mk false false (.object (postProcessClaims [['a'], ['b']]
      [(['a'], .mk false false (.object [(['b'], .mk false false (.string []))]))] addDataUriPrefix))) := by
  intro h
  have hconv := h.converts
  cases hconv

end OneCore.SdJwtVcFormatter
