/-
# The holder's record of what was disclosed

With each presentation the holder stores which claims it discloses.  The record is made from the
submitted paths and the paths of the stored claims as texts: a claim is recorded with every submitted
path at, above or below it.  The presentation itself follows the submitted paths part by part, and
only those that no other one continues.

So the record and the presentation differ for a claim below a submitted path that another submitted
path continues, and where the parts of a path are not what they are as texts: in keys with a `/` in
them, and with indices that are not written as the stored paths have them.  In all other cases the
record has exactly the claims that the verifier sees (`record_eq_seen_iff`).
-/
import OneCore.Holder.SubmitProof
import OneCore.SdJwt.KeyWalk

namespace OneCore.Holder

open List
open Path (Below AtOrBelow IsLeaf)
open SdJwt (IssuedToken Reached readAlong readLabel expandToken seen Returns Disclosable)

/-! ### Stored claims -/

def claimPath (p : List Str) : Str := [nestedClaimMarker].intercalate p

/-- The path of a claim is at, above or below a submitted one. -/
def Related (keys : List Str) (path : Str) : Prop :=
  ∃ key ∈ keys, AtOrBelow nestedClaimMarker key path ∨ Below nestedClaimMarker path key

/-- All claims of a credential are stored with their paths, and all are selectively disclosable. -/
structure Stores (claims : JsonValue) (stored : List HolderClaim) : Prop where
  disclosable : ∀ c ∈ stored, c.metadata = some false → c.selectivelyDisclosable = true
  exists_path : ∀ c ∈ stored, c.metadata = some false →
    ∃ p ≠ [], (claims.atPath p).isSome ∧ c.path = claimPath p
  exists_claim : ∀ p ≠ [], (claims.atPath p).isSome →
    ∃ c ∈ stored, c.metadata = some false ∧ c.path = claimPath p

lemma mem_foldl_keep {α : Type*} {P : List α → α → Prop} [∀ acc a, Decidable (P acc a)]
    {Q : α → Prop} (l acc : List α) (h : ∀ a ∈ l, ∀ acc, P acc a ↔ Q a) (x : α) :
    x ∈ l.foldl (fun acc a => if P acc a then acc ++ [a] else acc) acc ↔
      x ∈ acc ∨ x ∈ l ∧ Q x := by
  induction l generalizing acc with
  | nil => simp
  | cons a l ih =>
    obtain ⟨ha, h⟩ := forall_mem_cons.1 h
    rw [foldl_cons, ih _ h, mem_cons]
    by_cases hQ : Q a
    · rw [if_pos ((ha acc).2 hQ), mem_append, mem_singleton, or_assoc]
      refine or_congr_right ⟨?_, ?_⟩
      · rintro (rfl | ⟨hx, hQx⟩)
        · exact ⟨.inl rfl, hQ⟩
        · exact ⟨.inr hx, hQx⟩
      · rintro ⟨rfl | hx, hQx⟩
        · exact .inl rfl
        · exact .inr ⟨hx, hQx⟩
    · rw [if_neg fun hP => hQ ((ha acc).1 hP)]
      refine or_congr_right (and_congr_left fun hQx => ⟨.inr, ?_⟩)
      rintro (rfl | hx)
      · exact absurd hQx hQ
      · exact hx

variable {claims : JsonValue}

/-- The record has the stored claims whose paths are related to a submitted one. -/
lemma exists_record {credential : HolderCredential} {stored : List HolderClaim}
    (hcls : credential.claims = some stored) (hsto : Stores claims stored) (keys : List Str) :
    ∃ disclosed, disclosedClaimsForCredential credential keys = .ok disclosed ∧
      ∀ c, c ∈ disclosed ↔ c ∈ stored ∧ c.metadata = some false ∧ Related keys c.path := by
  have hok : disclosedClaimsForCredential credential keys = .ok
      (((stored.filter fun c => c.metadata = some false).insertionSort
        fun a b => a.path ≤ b.path).foldl (fun disclosed claim =>
          if IsDisclosed keys disclosed claim then disclosed ++ [claim] else disclosed) []) := by
    rw [disclosedClaimsForCredential, hcls]
    rfl
  refine ⟨_, hok, fun c => ?_⟩
  rw [mem_foldl_keep (Q := fun c => Related keys c.path) _ _ (fun c hc acc => ?_)]
  · simp [and_assoc]
  · rw [mem_insertionSort, mem_filter, decide_eq_true_eq] at hc
    rw [IsDisclosed, hsto.disclosable c hc.1 hc.2]
    exact ⟨fun h => h.resolve_right fun h => (by cases h.1), .inl⟩

/-! ### Paths and keys -/

variable {keys : List Str}

section Keys

/-- The labels that are found along a key are as they are written in it. -/
def SpelledAsStored (claims : JsonValue) (key : Str) : Prop :=
  (readAlong (key.splitOn nestedClaimMarker) claims).1 <+: key.splitOn nestedClaimMarker

variable {parts p : List Str} {v : JsonValue} {label key : Str}

lemma length_readAlong (h : (readAlong parts v).2 = true) :
    (readAlong parts v).1.length = parts.length := by
  induction parts generalizing v with
  | nil => rfl
  | cons part parts ih =>
    cases hlkp : v.children.lookup (readLabel part v) with
    | none =>
      rw [SdJwt.readAlong_cons_of_lookup_eq_none hlkp] at h
      cases h
    | some w =>
      rw [SdJwt.readAlong_cons_of_lookup rfl hlkp] at h ⊢
      rw [length_cons, length_cons, ih h]

variable {w : JsonValue}

lemma readLabel_of_lookup (hv : Disclosable v)
    (h : v.children.lookup label = some w) : readLabel label v = label := by
  cases hv with
  | @array values hlen hplain hvals =>
    obtain ⟨i, hi, hlab⟩ := exists_index_of_mem_indexedFrom (mem_of_lookup h)
    rw [Nat.zero_add] at hlab
    have hlab' : label = (toString i).toList := hlab
    rw [readLabel, hlab', Decimal.parse_toString (lt_of_lt_of_le hi hlen)]
  | _ => rfl

lemma disclosable_of_lookup (hv : Disclosable v)
    (h : v.children.lookup label = some w) : Disclosable w := by
  cases hv with
  | @array values hlen hplain hvals => exact hvals w (mem_of_mem_indexed (mem_of_lookup h))
  | object huniq hkeys hfields => exact hfields _ (mem_of_lookup h)
  | _ => cases h

lemma readAlong_append (hv : Disclosable v) (h : v.atPath p = some w) :
    readAlong (p ++ parts) v = (p ++ (readAlong parts w).1, (readAlong parts w).2) := by
  induction p generalizing v with
  | nil =>
    cases h
    rfl
  | cons label p ih =>
    obtain ⟨w', hlkp, hw⟩ := Option.bind_eq_some_iff.1 h
    rw [cons_append, SdJwt.readAlong_cons_of_lookup (readLabel_of_lookup hv hlkp) hlkp,
      ih (disclosable_of_lookup hv hlkp) hw]
    rfl

lemma isSome_atPath_of_isPrefix {q : List Str} (hpq : p <+: q)
    (h : (v.atPath q).isSome) : (v.atPath p).isSome := by
  obtain ⟨r, rfl⟩ := hpq
  induction p generalizing v with
  | nil => rfl
  | cons label p ih =>
    obtain ⟨w, hw⟩ := Option.isSome_iff_exists.1 h
    obtain ⟨w', hlkp, hw'⟩ := Option.bind_eq_some_iff.1 hw
    rw [JsonValue.atPath, hlkp]
    exact ih (Option.isSome_iff_exists.2 ⟨w, hw'⟩)

/-- A key that is spelled as the stored paths are reaches related claims only. -/
lemma related_of_reached (hkey : key ∈ keys) (hspel : SpelledAsStored claims key) (hp : p ≠ [])
    (h : Reached claims key p) : Related keys (claimPath p) := by
  have hjoin : claimPath (key.splitOn nestedClaimMarker) = key :=
    intercalate_splitOn nestedClaimMarker
  refine ⟨key, hkey, ?_⟩
  rcases h with h | ⟨hwhole, h⟩
  · have hat : AtOrBelow nestedClaimMarker (claimPath p) (claimPath (key.splitOn nestedClaimMarker)) :=
      Path.atOrBelow_intercalate hp (h.trans hspel)
    rw [hjoin] at hat
    rcases hat with hat | hat
    · exact .inl (.inl hat.symm)
    · exact .inr hat
  · have heq := hspel.eq_of_length (length_readAlong hwhole)
    have hat : AtOrBelow nestedClaimMarker (claimPath (key.splitOn nestedClaimMarker)) (claimPath p) :=
      Path.atOrBelow_intercalate (splitOn_ne_nil _ _) (heq ▸ h)
    rw [hjoin] at hat
    exact .inl hat

/-- A claim without separators in its keys is reached by a key at or below its path, and by a key
above it. -/
lemma reached_of_atOrBelow (hcls : Disclosable claims) (hp : p ≠ [])
    (hsome : (claims.atPath p).isSome) (hplain : ∀ l ∈ p, nestedClaimMarker ∉ l)
    (h : AtOrBelow nestedClaimMarker (claimPath p) key ∨ AtOrBelow nestedClaimMarker key (claimPath p)) :
    Reached claims key p := by
  have hspl : (claimPath p).splitOn nestedClaimMarker = p :=
    splitOn_intercalate nestedClaimMarker hplain hp
  rcases h with h | h
  · obtain ⟨parts, hparts⟩ := h.splitOn_isPrefix
    obtain ⟨w, hw⟩ := Option.isSome_iff_exists.1 hsome
    rw [hspl] at hparts
    rw [Reached, ← hparts, readAlong_append hcls hw]
    exact .inl (prefix_append _ _)
  · have hle := h.splitOn_isPrefix
    rw [hspl] at hle
    obtain ⟨w, hw⟩ := Option.isSome_iff_exists.1 (isSome_atPath_of_isPrefix hle hsome)
    have hread : readAlong (key.splitOn nestedClaimMarker) claims =
        (key.splitOn nestedClaimMarker, true) := by
      have happ : readAlong (key.splitOn nestedClaimMarker ++ []) claims = _ :=
        readAlong_append hcls hw
      rwa [readAlong, append_nil] at happ
    rw [Reached, hread]
    exact .inr ⟨rfl, hle⟩

end Keys

/-! ### The record and the presentation -/

/-- A claim with the given path is reached by a submitted path that no other one continues. -/
def ReachedByLeaf (claims : JsonValue) (keys : List Str) (path : Str) : Prop :=
  ∃ p ≠ [], (claims.atPath p).isSome ∧ claimPath p = path ∧
    ∃ key, IsLeaf nestedClaimMarker keys key ∧ Reached claims key p

/-- The submitted paths do not overlap in claims that would not be reached, the keys of related claims
can be told apart in their paths, and indices are written as in the stored paths, or else reach related
claims only. -/
structure Unambiguous (claims : JsonValue) (keys : List Str) : Prop where
  overlap : ∀ p ≠ [], (claims.atPath p).isSome →
    (∃ key ∈ keys, Below nestedClaimMarker key (claimPath p) ∧
      ∃ key' ∈ keys, Below nestedClaimMarker key key') → ReachedByLeaf claims keys (claimPath p)
  separators : ∀ p ≠ [], (claims.atPath p).isSome → (∃ l ∈ p, nestedClaimMarker ∈ l) →
    Related keys (claimPath p) → ReachedByLeaf claims keys (claimPath p)
  spelling : ∀ key, IsLeaf nestedClaimMarker keys key → ¬SpelledAsStored claims key →
    ∀ p ≠ [], (claims.atPath p).isSome → Reached claims key p → Related keys (claimPath p)

/-- A related claim is reached, unless it is one of the exceptions. -/
lemma Unambiguous.reachedByLeaf (h : Unambiguous claims keys)
    (hcls : Disclosable claims) {p : List Str} (hp : p ≠ []) (hsome : (claims.atPath p).isSome)
    (hrela : Related keys (claimPath p)) : ReachedByLeaf claims keys (claimPath p) := by
  by_cases hplain : ∀ l ∈ p, nestedClaimMarker ∉ l
  · obtain ⟨key, hkey, hrel⟩ := hrela
    by_cases hover : ∃ key' ∈ keys, Below nestedClaimMarker key key'
    · rcases hrel with (heq | hbelow) | hbelow
      · -- the claim is at a path that is continued, so a leaf is below it
        obtain ⟨leaf, hleaf, hat⟩ : ∃ leaf, IsLeaf nestedClaimMarker keys leaf ∧
            AtOrBelow nestedClaimMarker key leaf := Path.exists_isLeaf_atOrBelow hkey
        rw [← heq] at hat
        exact ⟨p, hp, hsome, rfl, leaf, hleaf, reached_of_atOrBelow hcls hp hsome hplain (.inl hat)⟩
      · exact h.overlap p hp hsome ⟨key, hkey, hbelow, hover⟩
      · obtain ⟨leaf, hleaf, hat⟩ : ∃ leaf, IsLeaf nestedClaimMarker keys leaf ∧
            AtOrBelow nestedClaimMarker key leaf := Path.exists_isLeaf_atOrBelow hkey
        exact ⟨p, hp, hsome, rfl, leaf, hleaf, reached_of_atOrBelow hcls hp hsome hplain
          (.inl (AtOrBelow.trans (.inr hbelow) hat))⟩
    · have hleaf : IsLeaf nestedClaimMarker keys key :=
        ⟨hkey, fun key' hkey' hbelow => hover ⟨key', hkey', hbelow⟩⟩
      refine ⟨p, hp, hsome, rfl, key, hleaf, reached_of_atOrBelow hcls hp hsome hplain ?_⟩
      rcases hrel with hrel | hrel
      · exact .inr hrel
      · exact .inl (.inr hrel)
  · push Not at hplain
    exact h.separators p hp hsome hplain hrela

/-- **The record of the holder.**  When a credential is presented, all of whose claims are stored with
their paths and are selectively disclosable, the recorded paths are those that the verifier sees,
exactly if the submitted paths are unambiguous. -/
theorem record_eq_seen_iff {cred : IssuedToken} {credential : HolderCredential}
    {stored : List HolderClaim} (hclaims : credential.claims = some stored)
    (hstored : Stores cred.claims.json stored) {keys : List Str} {token : Str}
    (hpresents : cred.Presents keys token) :
    ∃ disclosed result, disclosedClaimsForCredential credential keys = .ok disclosed ∧
      Returns (fun bound => expandToken cred.env cred.lib bound token) result ∧
      ((∀ path, (∃ c ∈ disclosed, c.path = path) ↔
          ∃ p ≠ [], claimPath p = path ∧ (seen (cred.userClaimPath ++ p) result).isSome) ↔
        Unambiguous cred.claims.json keys) := by
  obtain ⟨disclosed, hrecord, hmem⟩ := exists_record hclaims hstored keys
  obtain ⟨result, hres, hseen⟩ := IssuedToken.seen_iff_reached hpresents
  refine ⟨disclosed, result, hrecord, hres, ?_⟩
  -- both sides in terms of the claims
  have hleft : ∀ p ≠ [], (cred.claims.json.atPath p).isSome →
      (Related keys (claimPath p) ↔ ∃ c ∈ disclosed, c.path = claimPath p) := by
    intro p hp hsome
    constructor
    · intro hrel
      obtain ⟨c, hc, hmeta, hpath⟩ := hstored.exists_claim p hp hsome
      exact ⟨c, (hmem c).2 ⟨hc, hmeta, hpath ▸ hrel⟩, hpath⟩
    · rintro ⟨c, hc, hpath⟩
      exact hpath ▸ ((hmem c).1 hc).2.2
  have hright : ∀ path, (∃ p ≠ [], claimPath p = path ∧
      (seen (cred.userClaimPath ++ p) result).isSome) ↔
        ReachedByLeaf cred.claims.json keys path := by
    intro path
    refine exists_congr fun p => and_congr_right fun hp => ?_
    rw [hseen p hp, and_left_comm]
  simp only [hright]
  constructor
  · intro hagree
    have hrch : ∀ p ≠ [], (cred.claims.json.atPath p).isSome → Related keys (claimPath p) →
        ReachedByLeaf cred.claims.json keys (claimPath p) := fun p hp hsome hrel =>
      (hagree _).1 ((hleft p hp hsome).1 hrel)
    refine ⟨fun p hp hsome hover => ?_, fun p hp hsome _ => hrch p hp hsome,
      fun key hkey _ p hp hsome hreach => ?_⟩
    · obtain ⟨key, hkey, hbelow, -⟩ := hover
      exact hrch p hp hsome ⟨key, hkey, .inl (.inr hbelow)⟩
    · exact (hleft p hp hsome).2 ((hagree _).2 ⟨p, hp, hsome, rfl, key, hkey, hreach⟩)
  · intro hfits path
    constructor
    · rintro ⟨c, hc, rfl⟩
      obtain ⟨hc, hmeta, hrel⟩ := (hmem c).1 hc
      obtain ⟨p, hp, hsome, hpath⟩ := hstored.exists_path c hc hmeta
      rw [hpath] at hrel ⊢
      exact hfits.reachedByLeaf cred.claims.disclosable hp hsome hrel
    · rintro ⟨p, hp, hsome, rfl, key, hkey, hreach⟩
      refine (hleft p hp hsome).1 ?_
      by_cases hspel : SpelledAsStored cred.claims.json key
      · exact related_of_reached hkey.1 hspel hp hreach
      · exact hfits.spelling key hkey hspel p hp hsome hreach

/-! ### A claim and one of the claims in it -/

section Sample

/-- The claim `a` with `b` and `c` in it, in a token that names its hash. -/
def sampleToken : IssuedToken where
  toIssued := SdJwt.sampleIssued
  lib := ⟨fun _ => .ok (.object [(SdJwt.selectiveDisclosureMarker, .array [.string ['2']]),
      ("_sd_alg".toList, .string "sha-256".toList)]), id, fun l => .refl l⟩
  token := SdJwt.appendDisclosures ['j'] SdJwt.sampleDisclosures
  disclosures_eq := by decide
  disclosures_nonempty := by decide
  tokenPayload := .object [(SdJwt.selectiveDisclosureMarker, .array [.string ['2']]),
    ("_sd_alg".toList, .string "sha-256".toList)]
  tokenPayload_eq := rfl
  userClaimPath := []
  userClaimPath_plain := fun l hl => absurd hl not_mem_nil
  carries := .here {
    unique := by decide
    digests_eq := rfl
    plain := by
      intro f hf hne
      rcases mem_pair.1 hf with rfl | rfl
      · exact absurd rfl hne
      · exact .string _
    fresh := by decide }

def sampleStored : List HolderClaim :=
  [⟨"1", ['a'], true, some false⟩, ⟨"2", ['a', '/', 'b'], true, some false⟩,
    ⟨"3", ['a', '/', 'c'], true, some false⟩]

def sampleCredential : HolderCredential where
  id := "c"
  claims := some sampleStored
  credentialBlobId := none
  schema := none
  holderDidKeyJwk := .ok (none, "k", none)

lemma mem_of_sample_atPath {p : List Str} (hp : p ≠ [])
    (h : (sampleToken.claims.json.atPath p).isSome) :
    p ∈ [[['a']], [['a'], ['b']], [['a'], ['c']]] := by
  obtain ⟨w, hw⟩ := Option.isSome_iff_exists.1 h
  have hpaths : ∀ e ∈ sampleToken.claims.json.nodes 2, (e.1.length < 2 ∨ e.2.children.isEmpty) ∧
      (e.1 = [] ∨ e.1 ∈ [[['a']], [['a'], ['b']], [['a'], ['c']]]) := by decide +kernel
  exact (hpaths _ (JsonValue.mem_nodes (fun e he => (hpaths e he).1) hw)).2.resolve_left hp

lemma sample_stores : Stores sampleToken.claims.json sampleStored where
  disclosable := by decide
  exists_path c hc _ := by
    have hpaths : ∀ c ∈ sampleStored, ∃ p ∈ [[['a']], [['a'], ['b']], [['a'], ['c']]],
        p ≠ [] ∧ (sampleToken.claims.json.atPath p).isSome ∧ c.path = claimPath p := by
      decide
    obtain ⟨p, -, hp, hsome, hpath⟩ := hpaths c hc
    exact ⟨p, hp, hsome, hpath⟩
  exists_claim p hp hsome := by
    have hcls : ∀ p ∈ [[['a']], [['a'], ['b']], [['a'], ['c']]],
        ∃ c ∈ sampleStored, c.metadata = some false ∧ c.path = claimPath p := by
      decide
    exact hcls p (mem_of_sample_atPath hp hsome)

lemma sample_presents (h : SdJwt.pathsToLeafs (SdJwt.keysAt [] keys) = [['a', '/', 'b']]) :
    sampleToken.Presents keys "j~b[o2a01~b[t0b~".toList := by
  refine ⟨4, fun bound hbound => ?_⟩
  obtain ⟨k, rfl⟩ := Nat.exists_eq_add_of_le' hbound
  simp only [SdJwt.prepareSdPresentation, SdJwt.selectDisclosures,
    show sampleToken.userClaimPath = [] from rfl, h]
  with_unfolding_all rfl

/-- With `a/b` alone, the record is right: it has `a` and `a/b`. -/
theorem record_eq_seen_sample :
    ∃ token disclosed result, sampleToken.Presents [['a', '/', 'b']] token ∧
      disclosedClaimsForCredential sampleCredential [['a', '/', 'b']] = .ok disclosed ∧
      Returns (fun bound => expandToken sampleToken.env sampleToken.lib bound token) result ∧
      ∀ path, (∃ c ∈ disclosed, c.path = path) ↔
        ∃ p ≠ [], claimPath p = path ∧ (seen (sampleToken.userClaimPath ++ p) result).isSome := by
  have hunam : Unambiguous sampleToken.claims.json [['a', '/', 'b']] := by
    refine ⟨fun p hp hsome hover => ?_, fun p hp hsome hsep => ?_, fun key hkey hspel => ?_⟩
    · obtain ⟨key, hkey, -, key', hkey', hbelow⟩ := hover
      rw [mem_singleton.1 hkey, mem_singleton.1 hkey'] at hbelow
      exact absurd hbelow (by decide)
    · have hplain : ∀ p ∈ [[['a']], [['a'], ['b']], [['a'], ['c']]],
          ¬∃ l ∈ p, nestedClaimMarker ∈ l := by decide
      exact absurd hsep (hplain p (mem_of_sample_atPath hp hsome))
    · refine absurd ?_ hspel
      rw [mem_singleton.1 hkey.1, SpelledAsStored]
      decide
  have htok := sample_presents (show SdJwt.pathsToLeafs [['a', '/', 'b']] = _ by decide +kernel)
  obtain ⟨disclosed, result, hrecord, hres, hiff⟩ :=
    record_eq_seen_iff (show sampleCredential.claims = some sampleStored from rfl) sample_stores
      htok
  exact ⟨_, disclosed, result, htok, hrecord, hres, hiff.2 hunam⟩

/-- With both `a` and `a/b`, the claim `a/c` is recorded as disclosed, but the verifier does not see
it. -/
theorem overlapping_paths_recorded :
    ∃ token disclosed result, sampleToken.Presents [['a'], ['a', '/', 'b']] token ∧
      disclosedClaimsForCredential sampleCredential [['a'], ['a', '/', 'b']] = .ok disclosed ∧
      Returns (fun bound => expandToken sampleToken.env sampleToken.lib bound token) result ∧
      (∃ c ∈ disclosed, c.path = ['a', '/', 'c']) ∧
      ¬∃ p ≠ [], claimPath p = ['a', '/', 'c'] ∧
        (seen (sampleToken.userClaimPath ++ p) result).isSome := by
  have hsort : [['a'], ['a', '/', 'b']].mergeSort (fun a b => b ≤ a) = [['a', '/', 'b'], ['a']] := by
    simp [mergeSort, MergeSort.Internal.splitInTwo]
  have htok : sampleToken.Presents [['a'], ['a', '/', 'b']] _ :=
    sample_presents ((congrArg (foldl SdJwt.insertLeaf []) hsort).trans (by decide))
  obtain ⟨disclosed, hrecord, hmem⟩ := exists_record
    (show sampleCredential.claims = some sampleStored from rfl) sample_stores
    [['a'], ['a', '/', 'b']]
  obtain ⟨result, hres, hseen⟩ := IssuedToken.seen_iff_reached htok
  refine ⟨_, disclosed, result, htok, hrecord, hres, ?_, ?_⟩
  · refine ⟨⟨"3", ['a', '/', 'c'], true, some false⟩, (hmem _).2 ⟨by decide, rfl, ['a'], ?_, ?_⟩, rfl⟩
    · exact mem_cons_self
    · exact .inl (.inr (by decide))
  · rintro ⟨p, hp, hpath, hsome⟩
    obtain ⟨hclm, key, hleaf, hrch⟩ := (hseen p hp).1 hsome
    -- the only leaf is `a/b`
    obtain rfl : key = ['a', '/', 'b'] := by
      rcases mem_pair.1 hleaf.1 with rfl | rfl
      · exact absurd hleaf (by decide)
      · rfl
    have hnone : ∀ p ∈ [[['a']], [['a'], ['b']], [['a'], ['c']]], claimPath p = ['a', '/', 'c'] →
        ¬(p <+: [['a'], ['b']] ∨ true = true ∧ [['a'], ['b']] <+: p) := by
      decide
    exact hnone p (mem_of_sample_atPath hp hclm) hpath hrch

end Sample

end OneCore.Holder
