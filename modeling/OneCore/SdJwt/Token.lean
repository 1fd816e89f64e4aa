/-
# Tokens with disclosures

A token is the text of a JWT, then the disclosures, each after a `~`, then a `~` and possibly a token
for the key of the holder.  The holder takes the token of a credential apart, selects disclosures by
the keys of the claims, and puts the JWT and the selected disclosures together again; the verifier
takes this apart and expands the payload of the JWT.

The claims of the credential are at a path in the payload.  The payload has other values too, which
are not selectively disclosable: `Carries` says where the digests of the claims are among them.  What
is selected and what is expanded is then the same as with a payload that consists of the digests only.
-/
import OneCore.SdJwt.Visible

namespace OneCore.SdJwt

open List LabelledTree JsonValue CredentialClaim
open SdJwtVcFormatter (extendClaims)

/-- The reader of JWTs, and the order in which a hash set is iterated. -/
structure TokenLibrary where
  /-- The payload of a JWT, without its registered claims. -/
  decomposeToken : Str → Except FormatterError JsonValue
  hashSetOrder : List Str → List Str
  hashSetOrder_perm : ∀ l, (hashSetOrder l).Perm l

/-! ### The text of a token -/

section Text

/-- The parts of a text before and after the last occurrence of a letter. -/
def rsplitOnce (sep : Char) (s : Str) : Option (Str × Str) :=
  (Path.splitOnce sep s.reverse).map fun p => (p.2.reverse, p.1.reverse)

def stripSuffix (letter : Char) (s : Str) : Str :=
  if s.getLast? = some letter then s.dropLast else s

structure TokenParts where
  jwt : Str
  disclosures : List Str
  keyBindingToken : Option Str

def TokenParts.ofText (tokenWithDisclosures : Str) (keyBindingToken : Option Str) : TokenParts :=
  match tokenWithDisclosures.splitOn '~' with
  | [] => ⟨[], [], keyBindingToken⟩
  | jwt :: disclosures => ⟨jwt, disclosures, keyBindingToken⟩

/-- Take a token apart.  Tokens of an earlier form do not have the `~` at the end; their last part is
told from the token for the key of the holder by not having a dot. -/
def tokenParts (token : Str) : TokenParts :=
  match rsplitOnce '~' token with
  | some (tokenWithDisclosures, kbToken) =>
    if kbToken ≠ [] ∧ '.' ∈ kbToken then .ofText tokenWithDisclosures (some kbToken)
    else .ofText (stripSuffix '~' token) none
  | none => .ofText (stripSuffix '~' token) none

def appendDisclosures (token : Str) (disclosures : List Str) : Str :=
  let joined := ['~'].intercalate disclosures
  token ++ '~' :: (if joined = [] then [] else joined ++ ['~'])

variable {jwt : Str} {disclosures : List Str}

lemma TokenParts.ofText_intercalate (hjwt : '~' ∉ jwt) (hdiscs : ∀ d ∈ disclosures, '~' ∉ d)
    (kb : Option Str) :
    ofText (['~'].intercalate (jwt :: disclosures)) kb = ⟨jwt, disclosures, kb⟩ := by
  have hspl : (['~'].intercalate (jwt :: disclosures)).splitOn '~' = jwt :: disclosures :=
    splitOn_intercalate '~' (forall_mem_cons.2 ⟨hjwt, hdiscs⟩) (cons_ne_nil _ _)
  rw [ofText, hspl]

lemma rsplitOnce_append {sep : Char} {b : Str} (hb : sep ∉ b) (a : Str) :
    rsplitOnce sep (a ++ sep :: b) = some (a, b) := by
  have hspl : Path.splitOnce sep (b.reverse ++ sep :: a.reverse) = some (b.reverse, a.reverse) :=
    Path.splitOnce_append (mt mem_reverse.1 hb) a.reverse
  simp [rsplitOnce, hspl]

lemma tokenParts_append_tilde (s : Str) : tokenParts (s ++ ['~']) = .ofText s none := by
  have hstrip : stripSuffix '~' (s ++ ['~']) = s := by
    rw [stripSuffix, getLast?_concat, if_pos rfl, dropLast_concat]
  rw [tokenParts, rsplitOnce_append not_mem_nil]
  simp [hstrip]

lemma appendDisclosures_eq (hdiscs : ∀ d ∈ disclosures, d ≠ []) :
    appendDisclosures jwt disclosures = ['~'].intercalate (jwt :: disclosures) ++ ['~'] := by
  rw [appendDisclosures]
  cases disclosures with
  | nil => simp [intercalate]
  | cons d ds =>
    have hne : ['~'].intercalate (d :: ds) ≠ [] := by
      intro hnil
      have hd := hdiscs d mem_cons_self
      cases ds with
      | nil => exact hd (by simpa [intercalate] using hnil)
      | cons d' ds => simp [intercalate] at hnil
    rw [if_neg hne]
    simp [intercalate]

lemma tokenParts_appendDisclosures (hjwt : '~' ∉ jwt)
    (hdiscs : ∀ d ∈ disclosures, '~' ∉ d ∧ d ≠ []) :
    tokenParts (appendDisclosures jwt disclosures) = ⟨jwt, disclosures, none⟩ := by
  rw [appendDisclosures_eq fun d hd => (hdiscs d hd).2, tokenParts_append_tilde]
  exact TokenParts.ofText_intercalate hjwt (fun d hd => (hdiscs d hd).1) none

lemma not_mem_tokenParts {token : Str} :
    '~' ∉ (tokenParts token).jwt ∧ ∀ d ∈ (tokenParts token).disclosures, '~' ∉ d := by
  have hparts : ∀ (s : Str) (kb : Option Str), '~' ∉ (TokenParts.ofText s kb).jwt ∧
      ∀ d ∈ (TokenParts.ofText s kb).disclosures, '~' ∉ d := by
    intro s kb
    have hspl : ∀ d ∈ s.splitOn '~', '~' ∉ d := fun d hd => Path.not_mem_of_mem_splitOn hd
    rw [TokenParts.ofText]
    cases h : s.splitOn '~' with
    | nil => simp
    | cons jwt ds =>
      rw [h] at hspl
      exact forall_mem_cons.1 hspl
  rw [tokenParts]
  split
  · split
    · exact hparts _ _
    · exact hparts _ _
  · exact hparts _ _

end Text

/-! ### Presentations -/

section Presentation

structure DecomposedToken where
  jwt : Str
  disclosures : List Disclosure
  keyBindingToken : Option Str

def parseToken (env : Environment) (token : Str) : Except FormatterError DecomposedToken := do
  let parts := tokenParts token
  let disclosures ← parts.disclosures.mapM (decodeDisclosure env)
  return ⟨parts.jwt, disclosures, parts.keyBindingToken⟩

/-- The keys of claims that are at a path in the payload. -/
def keysAt (userClaimPath disclosedKeys : List Str) : List Str :=
  if userClaimPath = [] then disclosedKeys
  else disclosedKeys.map fun key =>
    [nestedClaimMarker].intercalate userClaimPath ++ nestedClaimMarker :: key

def prepareSdPresentation (env : Environment) (lib : TokenLibrary) (bound : Nat) (token : Str)
    (disclosedKeys userClaimPath : List Str) : Except WalkError Str := do
  let parsed ← (parseToken env token).mapError .failed
  let payload ← (lib.decomposeToken parsed.jwt).mapError .failed
  let disclosures ← selectDisclosures env bound (keysAt userClaimPath disclosedKeys)
    payload parsed.disclosures
  return appendDisclosures parsed.jwt (lib.hashSetOrder disclosures)

/-- The payload of a token with the disclosures in place, after the check of the signature. -/
def expandToken (env : Environment) (lib : TokenLibrary) (bound : Nat) (token : Str) :
    Except WalkError CredentialClaim := do
  let parsed ← (parseToken env token).mapError .failed
  let payload ← (lib.decomposeToken parsed.jwt).mapError .failed
  let disclosuresWithHashes ← (hashDisclosures env parsed.disclosures).mapError .failed
  let payloadBeforeExpanding ← (CredentialClaimValue.tryFrom payload).mapError .failed
  recursivelyExpandDisclosures disclosuresWithHashes bound (.mk false false payloadBeforeExpanding)

end Presentation

/-! ### Payloads with other values -/

/-- An object with digests and plain values.  The keys are those of the claims behind the digests. -/
structure HoldsDigests (digests keys : List Str) (fields : List (Str × JsonValue)) : Prop where
  unique : (fields.map Prod.fst).Nodup
  digests_eq : fields.lookup selectiveDisclosureMarker = some (.array (digests.map .string))
  plain : ∀ f ∈ fields, f.1 ≠ selectiveDisclosureMarker → Disclosable f.2
  fresh : ∀ f ∈ fields, f.1 ∉ keys

/-- A payload with digests at a path; all other values in it are plain. -/
inductive Carries (digests keys : List Str) : List Str → JsonValue → Prop
  | here {fields : List (Str × JsonValue)} (h : HoldsDigests digests keys fields) :
      Carries digests keys [] (.object fields)
  | inside {fields : List (Str × JsonValue)} {key : Str} {v : JsonValue} {path : List Str}
      (unique : (fields.map Prod.fst).Nodup)
      (plain : ∀ f ∈ fields, f.1 ≠ selectiveDisclosureMarker ∧ (f.1 ≠ key → Disclosable f.2))
      (value : fields.lookup key = some v) (h : Carries digests keys path v) :
      Carries digests keys (key :: path) (.object fields)

variable {payload : JsonValue}

lemma Carries.mono {digests keys keys' path : List Str} (h : Carries digests keys path payload)
    (hkeys : keys' ⊆ keys) : Carries digests keys' path payload := by
  induction h with
  | here h => exact .here ⟨h.unique, h.digests_eq, h.plain, fun f hf hmem => h.fresh f hf (hkeys hmem)⟩
  | inside unique plain value _ ih => exact .inside unique plain value ih

lemma Carries.nullFree {digests keys path : List Str}
    (h : Carries digests keys path payload) : NullFree payload := by
  induction h with
  | @here fields h =>
    refine .object fun f hf => ?_
    by_cases hkey : f.1 = selectiveDisclosureMarker
    · have hval := (lookup_eq_some_iff_mem h.unique).2 (show (f.1, f.2) ∈ fields from hf)
      rw [hkey, h.digests_eq, Option.some.injEq] at hval
      rw [← hval]
      refine .array fun v hv => ?_
      obtain ⟨d, -, rfl⟩ := mem_map.1 hv
      exact .string d
    · exact (h.plain f hf hkey).nullFree
  | @inside fields key v path unique plain value h ih =>
    refine .object fun f hf => ?_
    by_cases hkey : f.1 = key
    · have hval := (lookup_eq_some_iff_mem unique).2 (show (f.1, f.2) ∈ fields from hf)
      rw [hkey, value, Option.some.injEq] at hval
      rw [← hval]
      exact ih
    · exact ((plain f hf).2 hkey).nullFree

/-! ### The verifier -/

section Verifier

variable {env : Environment} {Leaf : JsonValue → Prop} (hleaf : ∀ v, Leaf v → Disclosable v)
  {entries : List HashedDisclosure} {disclosed : List Str}
  {children : List (Str × Link × SdTree)}

lemma seen_plain (p : List Str) (v : JsonValue) (md : Bool) :
    seen p (.mk false md (plainValue v)) = none := by
  induction p generalizing v md with
  | nil => rfl
  | cons l p ih =>
    rw [seen_cons]
    -- whatever is found inside is plain again
    have hchs : ∀ entries : List (Str × JsonValue),
        ((entries.map fun e => (e.1, mk false false (plainValue e.2))).lookup l).bind
          (seen p) = none := by
      intro entries
      have hlkp := lookup_map_snd (fun _ v => mk false false (plainValue v)) l entries
      rw [hlkp]
      cases entries.lookup l with
      | none => rfl
      | some w => exact ih w false
    cases v with
    | array values =>
      rw [plainValue, plainValues_eq_map, CredentialClaim.children, indexed_map]
      exact hchs (indexed values)
    | object fields =>
      rw [plainValue, plainFields_eq_map]
      exact hchs fields
    | _ => rfl

variable {fields : List (Str × JsonValue)} {digests : List Str} {f : Str × JsonValue} {bound : Nat}

lemma gatherObjectSdHashes_plainFields
    (h : fields.lookup selectiveDisclosureMarker = some (.array (digests.map .string))) :
    gatherObjectSdHashes (plainFields fields) = digests := by
  have hlkp := lookup_map_snd (fun _ v => mk false false (plainValue v))
    selectiveDisclosureMarker fields
  rw [h, Option.map_some, plainValue, plainValues_eq_map] at hlkp
  rw [gatherObjectSdHashes, plainFields_eq_map, hlkp]
  simp only [filterMap_map]
  exact filterMap_some

/-- The plain values of an object with digests. -/
def plainOnes (fields : List (Str × JsonValue)) : List (Str × JsonValue) :=
  fields.filter fun f => f.1 ≠ selectiveDisclosureMarker

lemma mem_plainOnes : f ∈ plainOnes fields ↔ f ∈ fields ∧ f.1 ≠ selectiveDisclosureMarker := by
  rw [plainOnes, mem_filter, decide_eq_true_eq]

lemma HoldsDigests.nodup_append {keys : List Str} (h : HoldsDigests digests keys fields)
    (hkeys : keys.Nodup) : ((plainOnes fields).map Prod.fst ++ keys).Nodup := by
  refine List.nodup_append.2 ⟨h.unique.sublist (List.filter_sublist.map _), hkeys, ?_⟩
  rintro k hk k' hk' rfl
  obtain ⟨f, hf, rfl⟩ := List.mem_map.1 hk
  exact h.fresh f (mem_plainOnes.1 hf).1 hk'

lemma sizeOf_le_of_mem_fields (hf : f ∈ fields) : sizeOf f.2 < sizeOf (object fields) := by
  have hlt := sizeOf_lt_of_mem hf
  obtain ⟨k, v⟩ := f
  rw [object.sizeOf_spec]
  simp only [Prod.mk.sizeOf_spec] at hlt ⊢
  omega

include hleaf in
/-- The expansion of an object with digests and plain values. -/
lemma HoldsDigests.expand
    (h : HoldsDigests (children.map fun c => c.2.1.digest) (children.map Prod.fst) fields)
    (hlnk : Linked env Leaf (.node .object children))
    (hfinds : Finds entries disclosed (.node .object children))
    (hbound : sizeOf (object fields) + heightOf sizeOf children + 3 ≤ bound) :
    recursivelyExpandDisclosures entries bound (.mk false false (plainValue (.object fields))) =
      .ok (.mk false false (.object
        (plainFields (plainOnes fields) ++ revealFields disclosed children))) := by
  obtain ⟨bound, rfl⟩ : ∃ b, bound = b + 1 := ⟨bound - 1, by omega⟩
  cases hlnk with
  | node labels leads hchs =>
    rw [plainValue]
    refine expand_object_eq (gatherObjectSdHashes_plainFields h.digests_eq)
      (hfinds.expandable leads fun c hc => (hchs c hc).nullFree_payload hleaf) ?_ ?_
      (h.nodup_append labels.nodup) ?_ false false
    · rw [plainFields_eq_map, plainFields_eq_map, filter_map]
      rfl
    · intro f hf
      obtain ⟨hf, hkey⟩ := mem_plainOnes.1 hf
      have hlt := sizeOf_le_of_mem_fields hf
      exact ⟨h.plain f hf hkey, by omega⟩
    · intro c hc
      have hle := height_le_heightOf sizeOf hc
      exact expand_eq_reveal hleaf (hchs c hc) (hfinds.child hc) (by omega) true false

/-- In an object with digests and plain values, what is behind the digests is seen. -/
lemma HoldsDigests.seen_eq (h : HoldsDigests digests (children.map Prod.fst) fields) {q : List Str}
    (hq : q ≠ []) :
    seen q (.mk false false (.object
        (plainFields (plainOnes fields) ++ revealFields disclosed children))) =
      seen q (.mk false false (reveal disclosed (.node .object children))) := by
  obtain ⟨l, p, rfl⟩ := exists_cons_of_ne_nil hq
  rw [seen_cons, seen_cons, reveal, CredentialClaim.children, CredentialClaim.children,
    lookup_append]
  cases hplain : (plainFields (plainOnes fields)).lookup l with
  | none => rfl
  | some c =>
    -- a plain value, whose key is not one of the claims
    have hmem := mem_of_lookup hplain
    rw [plainFields_eq_map] at hmem
    obtain ⟨f, hf, hfc⟩ := mem_map.1 hmem
    obtain ⟨rfl, rfl⟩ := Prod.mk.inj hfc
    have hnone : (revealFields disclosed children).lookup f.1 = none := by
      rw [revealFields_eq_map, lookup_eq_none_iff]
      intro e he
      obtain ⟨c, hc, rfl⟩ := mem_map.1 he
      refine bne_iff_ne.2 fun heq => h.fresh f (mem_plainOnes.1 hf).1 ?_
      rw [heq]
      exact mem_map_of_mem (mem_of_mem_filter hc)
    rw [hnone]
    exact seen_plain p f.2 false

/-- A path through a plain object with one value that is not plain. -/
lemma expand_inside {key : Str} {v : JsonValue}
    {result : CredentialClaim} (unique : (fields.map Prod.fst).Nodup)
    (plain : ∀ f ∈ fields, f.1 ≠ selectiveDisclosureMarker ∧ (f.1 ≠ key → Disclosable f.2))
    (value : fields.lookup key = some v) (hsize : sizeOf (object fields) ≤ bound)
    (hexp : recursivelyExpandDisclosures entries bound (.mk false false (plainValue v)) =
      .ok result) :
    recursivelyExpandDisclosures entries (bound + 1)
        (.mk false false (plainValue (.object fields))) =
      .ok (.mk false false (.object (fields.map fun f =>
        (f.1, if f.1 = key then result else .mk false false (plainValue f.2))))) := by
  refine expand_plainFields (fun f hf => (plain f hf).1) ?_ false false
  rw [plainFields_eq_map, mapM_eq_ok, forall₂_map_left_iff, forall₂_map_right_iff, forall₂_same]
  intro f hf
  refine bind_eq_ok.2 ?_
  by_cases hkey : f.1 = key
  · have hval := (lookup_eq_some_iff_mem unique).2 (show (f.1, f.2) ∈ fields from hf)
    rw [hkey, value, Option.some.injEq] at hval
    rw [← hval, if_pos hkey]
    exact ⟨result, hexp, rfl⟩
  · have hlt := sizeOf_le_of_mem_fields hf
    rw [if_neg hkey]
    exact ⟨_, expand_plain ((plain f hf).2 hkey) (by omega) false false, rfl⟩

include hleaf in
/-- What is seen in a payload at the path of the claims is what is revealed of their tree. -/
lemma Carries.exists_expand {path : List Str}
    (h : Carries (children.map fun c => c.2.1.digest) (children.map Prod.fst) path payload)
    (hlnk : Linked env Leaf (.node .object children))
    (hfinds : Finds entries disclosed (.node .object children)) :
    ∃ result, (∀ bound ≥ sizeOf payload + heightOf sizeOf children + 3,
        recursivelyExpandDisclosures entries bound (.mk false false (plainValue payload)) =
          .ok result) ∧
      ∀ q ≠ [], seen (path ++ q) result =
        seen q (.mk false false (reveal disclosed (.node .object children))) := by
  induction h with
  | here h => exact ⟨_, fun bound hbound => h.expand hleaf hlnk hfinds hbound,
      fun q hq => h.seen_eq hq⟩
  | @inside fields key v path unique plain value h ih =>
    obtain ⟨result, hres, hseen⟩ := ih
    have hlt := sizeOf_le_of_mem_fields (mem_of_lookup value)
    refine ⟨.mk false false (.object (fields.map fun f =>
      (f.1, if f.1 = key then result else .mk false false (plainValue f.2)))),
      fun bound hbound => ?_, fun q hq => ?_⟩
    · obtain ⟨bound, rfl⟩ : ∃ b, bound = b + 1 := ⟨bound - 1, by omega⟩
      simp only at hlt
      exact expand_inside unique plain value (by omega) (hres bound (by omega))
    · have hlkp := lookup_map_snd (fun k v => if k = key then result else
        mk false false (plainValue v)) key fields
      rw [cons_append, seen_cons, CredentialClaim.children, hlkp, value, Option.map_some,
        Option.bind_some, if_pos rfl]
      exact hseen q hq

end Verifier

end OneCore.SdJwt
