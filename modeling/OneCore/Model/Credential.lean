/-
# Credentials as the formatters hand them on

Every credential format is decoded into the same `DetailCredential`: who issued it, whom it is
about, when it is valid, and a tree of claims.  The claim tree comes from a JSON value, with
nulls dropped from objects and refused everywhere else.

Text is the list of its characters, since claim keys are taken apart at the nesting marker.  A
hash map is the list of its entries; nothing here depends on the order of its iteration.
-/
import OneCore.Lib.IndexMap

namespace OneCore

open List IndexMap

/-- Text that the code takes apart. -/
abbrev Str := List Char

instance Str.lawfulBEq : LawfulBEq Str := inferInstance

/-- A point in time, in nanoseconds since the epoch. -/
abbrev Timestamp := Int

def seconds (n : Nat) : Int := n * 1000000000

/-- Separates the levels of a nested claim in a claim path. -/
def nestedClaimMarker : Char := '/'

/-! ### JSON values and claims -/

/-- A JSON number: an integer, or the bits of a double. -/
inductive Number where
  | int (n : Int)
  | float (bits : UInt64)

/-- A JSON value; the fields of an object in the order of the text. -/
inductive JsonValue where
  | null
  | bool (b : Bool)
  | number (n : Number)
  | string (s : Str)
  | array (values : List JsonValue)
  | object (fields : List (Str × JsonValue))
deriving Inhabited

mutual

inductive CredentialClaim where
  | mk (selectivelyDisclosable metadata : Bool) (value : CredentialClaimValue)

inductive CredentialClaimValue where
  | bool (b : Bool)
  | number (n : Number)
  | string (s : Str)
  | array (values : List CredentialClaim)
  | object (fields : List (Str × CredentialClaim))

end

def CredentialClaim.asObject : CredentialClaim → Option (List (Str × CredentialClaim))
  | .mk _ _ (.object fields) => some fields
  | _ => none

namespace CredentialClaim

def selectivelyDisclosable : CredentialClaim → Bool
  | mk sd _ _ => sd

def metadata : CredentialClaim → Bool
  | mk _ md _ => md

def value : CredentialClaim → CredentialClaimValue
  | mk _ _ v => v

@[simp] lemma value_mk (sd md : Bool) (v : CredentialClaimValue) : (mk sd md v).value = v := rfl

end CredentialClaim

mutual

/-- Set the metadata flag of a claim and of all claims inside it. -/
def CredentialClaim.setMetadata (metadata : Bool) : CredentialClaim → CredentialClaim
  | .mk sd _ value => .mk sd metadata (value.setMetadata metadata)

def CredentialClaimValue.setMetadata (metadata : Bool) :
    CredentialClaimValue → CredentialClaimValue
  | .array values => .array (CredentialClaimValue.setMetadataValues metadata values)
  | .object fields => .object (CredentialClaimValue.setMetadataFields metadata fields)
  | .bool b => .bool b
  | .number n => .number n
  | .string s => .string s

def CredentialClaimValue.setMetadataValues (metadata : Bool) :
    List CredentialClaim → List CredentialClaim
  | [] => []
  | c :: cs => c.setMetadata metadata :: CredentialClaimValue.setMetadataValues metadata cs

def CredentialClaimValue.setMetadataFields (metadata : Bool) :
    List (Str × CredentialClaim) → List (Str × CredentialClaim)
  | [] => []
  | (k, c) :: fs => (k, c.setMetadata metadata) ::
      CredentialClaimValue.setMetadataFields metadata fs

end

/-- The errors of the credential formatters.  The errors of the libraries underneath are
`library`, and those of nested components are `nested`. -/
inductive FormatterError where
  | couldNotVerify (msg : String)
  | couldNotFormat (msg : String)
  | couldNotExtractCredentials (msg : String)
  | couldNotExtractPresentation (msg : String)
  | jsonMapping (msg : String)
  | library (msg : String)
  | nested (msg : String)

/-- The text of an error; the errors of libraries come with theirs. -/
def FormatterError.display : FormatterError → String
  | .couldNotVerify msg => "Could not verify: `" ++ msg ++ "`"
  | .couldNotFormat msg => "Could not format: `" ++ msg ++ "`"
  | .couldNotExtractCredentials msg => "Could not extract credentials: `" ++ msg ++ "`"
  | .couldNotExtractPresentation msg => "Could not extract presentation: `" ++ msg ++ "`"
  | .jsonMapping msg => "JSON mapping error: `" ++ msg ++ "`"
  | .library msg => msg
  | .nested msg => msg

namespace CredentialClaimValue

mutual

def tryFrom : JsonValue → Except FormatterError CredentialClaimValue
  | .null => .error (.couldNotFormat "Null json value encountered")
  | .bool b => .ok (.bool b)
  | .number n => .ok (.number n)
  | .string s => .ok (.string s)
  | .array values => do return .array (← tryFromValues values)
  | .object fields => do return .object (← tryFromFields fields)

def tryFromValues : List JsonValue → Except FormatterError (List CredentialClaim)
  | [] => .ok []
  | v :: vs => do return .mk false false (← tryFrom v) :: (← tryFromValues vs)

/-- The claims of the fields of an object, without those that are null. -/
def tryFromFields :
    List (Str × JsonValue) → Except FormatterError (List (Str × CredentialClaim))
  | [] => .ok []
  | (k, v) :: fs => do
    match v with
    | .null => tryFromFields fs
    | v => return (k, .mk false false (← tryFrom v)) :: (← tryFromFields fs)

end

end CredentialClaimValue

/-- Write a key of a hash map that is kept as the list of its entries. -/
def mapInsert {ν : Type*} (k : Str) (v : ν) (l : List (Str × ν)) : List (Str × ν) :=
  upsertEntries k (fun _ => v) l

variable {ν : Type*} {k : Str} {v : ν} {l : List (Str × ν)}

lemma mem_mapInsert {e : Str × ν} (h : e ∈ mapInsert k v l) : e = (k, v) ∨ e ∈ l := by
  rcases mem_upsertEntries h with ⟨o, rfl⟩ | h
  · exact Or.inl rfl
  · exact Or.inr h

lemma mapInsert_of_not_mem (v : ν) (h : k ∉ l.map Prod.fst) : mapInsert k v l = l ++ [(k, v)] :=
  upsertEntries_of_not_mem _ h

lemma nodup_mapInsert (v : ν)
    (h : (l.map Prod.fst).Nodup) : ((mapInsert k v l).map Prod.fst).Nodup :=
  (upsert ⟨l, h⟩ k fun _ => v).nodup

lemma lookup_cons_of_ne {k' : Str} (h : k' ≠ k) (v : ν) (l : List (Str × ν)) :
    ((k, v) :: l).lookup k' = l.lookup k' := by
  have hk : (k' == k) = false := beq_eq_false_iff_ne.2 h
  rw [lookup_cons, hk]

lemma mem_of_lookup (h : l.lookup k = some v) : (k, v) ∈ l := by
  obtain ⟨l₁, l₂, rfl, -⟩ := lookup_eq_some_iff.1 h
  exact mem_append_right _ mem_cons_self

lemma lookup_eq_map_find? :
    l.lookup k = (l.find? fun e => e.1 = k).map Prod.snd := by
  induction l with
  | nil => rfl
  | cons e l ih =>
    by_cases h : k = e.1
    · subst h
      rw [find?_cons_of_pos (by simp)]
      exact lookup_cons_self
    · rw [lookup_cons_of_ne h, find?_cons_of_neg (by simpa using Ne.symm h), ih]

lemma lookup_eq_some_iff_mem (hnd : (l.map Prod.fst).Nodup) : l.lookup k = some v ↔ (k, v) ∈ l := by
  rw [lookup_eq_map_find?]
  exact get?_eq_some_iff (m := ⟨l, hnd⟩)

lemma lookup_perm {l' : List (Str × ν)} (hperm : l.Perm l') (hnd : (l.map Prod.fst).Nodup)
    (k : Str) : l.lookup k = l'.lookup k := by
  have hnd' := (hperm.map Prod.fst).nodup_iff.1 hnd
  refine Option.ext fun v => ?_
  rw [lookup_eq_some_iff_mem hnd, lookup_eq_some_iff_mem hnd', hperm.mem_iff]

lemma lookup_mapInsert (k k' : Str) (v : ν) (l : List (Str × ν)) :
    (mapInsert k v l).lookup k' = if k' = k then some v else l.lookup k' := by
  rw [lookup_eq_map_find?, lookup_eq_map_find?]
  exact find?_upsertEntries k k' _ l

lemma mem_mapInsert_self (k : Str) (v : ν) (l : List (Str × ν)) : (k, v) ∈ mapInsert k v l :=
  mem_of_lookup ((lookup_mapInsert k k v l).trans (if_pos rfl))

lemma lookup_map_snd {α β : Type*} (f : Str → α → β) (l : Str) (entries : List (Str × α)) :
    (entries.map fun e => (e.1, f e.1 e.2)).lookup l = (entries.lookup l).map (f l) := by
  induction entries with
  | nil => rfl
  | cons e entries ih =>
    by_cases hl : l = e.1
    · subst hl
      rw [map_cons, lookup_cons_self, lookup_cons_self, Option.map_some]
    · rw [map_cons, lookup_cons_of_ne hl, lookup_cons_of_ne hl, ih]

/-- The value of the first element with a key, in a list of values under the keys of elements. -/
lemma exists_lookup_of_forall₂ {α : Type*} {key : α → Str} {R : α → ν → Prop} {l : List α}
    {es : List (Str × ν)} (h : Forall₂ (fun a e => e.1 = key a ∧ R a e.2) l es)
    (hnd : (l.map key).Nodup) {a : α} (ha : a ∈ l) :
    ∃ v, es.lookup (key a) = some v ∧ R a v := by
  induction h with
  | nil => cases ha
  | @cons b e l es hb _ ih =>
    obtain ⟨hnew, hnd⟩ := nodup_cons.1 hnd
    rcases mem_cons.1 ha with rfl | ha
    · refine ⟨e.2, ?_, hb.2⟩
      rw [← hb.1, lookup_cons_self]
    · have hne : key a ≠ e.1 := by
        rw [hb.1]
        intro heq
        exact hnew (heq ▸ mem_map_of_mem ha)
      rw [lookup_cons_of_ne hne]
      exact ih hnd ha

/-! ### Keys and identifiers -/

/-- What a key may be used for. -/
inductive JwkUse where
  | signature
  | encryption
  | unknown (use : String)
deriving DecidableEq

/-- An elliptic curve key or an octet key pair. -/
structure PublicJwkEc where
  alg : Option String
  use : Option JwkUse
  kid : Option String
  crv : String
  x : String
  y : Option String
deriving DecidableEq

structure PublicJwkRsa where
  alg : Option String
  use : Option JwkUse
  kid : Option String
  e : String
  n : String
deriving DecidableEq

structure PublicJwkOct where
  alg : Option String
  use : Option JwkUse
  kid : Option String
  k : String
deriving DecidableEq

structure PublicJwkAkp where
  alg : String
  use : Option JwkUse
  kid : Option String
  pub : String
deriving DecidableEq

inductive PublicJwk where
  | ec (key : PublicJwkEc)
  | rsa (key : PublicJwkRsa)
  | okp (key : PublicJwkEc)
  | oct (key : PublicJwkOct)
  | akp (key : PublicJwkAkp)
deriving DecidableEq

inductive KeyAlgorithmType where
  | eddsa
  | ecdsa
  | bbsPlus
  | mlDsa
deriving DecidableEq

/-- A certificate chain in PEM form, with the attributes of its leaf. -/
structure CertificateDetails where
  chain : String
  fingerprint : String
  expiry : Timestamp
  subjectCommonName : Option String
deriving DecidableEq

/-- An issuer or a holder: by DID, by certificate or by key. -/
inductive IdentifierDetails where
  | did (value : String)
  | certificate (details : CertificateDetails)
  | key (jwk : PublicJwk)
deriving DecidableEq

/-! ### Credentials -/

structure CredentialSchema where
  id : String
  type : String

structure CredentialStatus where
  id : Option String
  type : String
  statusPurpose : Option String
  additionalFields : List (Str × JsonValue)

def tokenStatusListEntry (uri : Str) (index : Nat) : CredentialStatus :=
  ⟨none, "TokenStatusListEntry", some "revocation",
    [("uri".toList, .string uri), ("idx".toList, .string (toString index).toList)]⟩

structure CredentialSubject where
  id : Option String
  claims : List (Str × CredentialClaim)

structure DetailCredential where
  id : Option String
  issuanceDate : Option Timestamp
  validFrom : Option Timestamp
  validUntil : Option Timestamp
  updateAt : Option Timestamp
  invalidBefore : Option Timestamp
  issuer : IdentifierDetails
  subject : Option IdentifierDetails
  claims : CredentialSubject
  status : List CredentialStatus
  credentialSchema : Option CredentialSchema

end OneCore
