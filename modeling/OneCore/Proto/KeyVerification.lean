/-
# Keys and DID documents

A signature names its key: by a DID and a key id, by a certificate chain, or outright.  The key
of a DID is one of the verification methods of the document that the DID resolves to: the one
with the given key id, or the first one of the role at hand when there is no key id.

`KeyVerification` is parametrised by the type of parsed keys, by the resolution of DIDs and by
what the cryptography makes of keys and signatures.
-/
import OneCore.Lib.Result
import OneCore.Model.Verification

namespace OneCore

/-! ### DID documents -/

/-- What a key of a DID document may be used for. -/
inductive KeyRole where
  | authentication
  | assertionMethod
  | keyAgreement
  | capabilityInvocation
  | capabilityDelegation
  | updateKey
deriving DecidableEq

def KeyRole.display : KeyRole → String
  | .authentication => "authentication"
  | .assertionMethod => "assertionMethod"
  | .keyAgreement => "keyAgreement"
  | .capabilityInvocation => "capabilityInvocation"
  | .capabilityDelegation => "capabilityDelegation"
  | .updateKey => "updateKey"

structure DidVerificationMethod where
  id : String
  type : String
  controller : String
  publicKeyJwk : PublicJwk
deriving DecidableEq

/-- A resolved DID document.  The context, the aliases and the services are kept as text: they
are only ever compared. -/
structure DidDocument where
  id : String
  verificationMethod : List DidVerificationMethod
  authentication : Option (List String)
  assertionMethod : Option (List String)
  keyAgreement : Option (List String)
  capabilityInvocation : Option (List String)
  capabilityDelegation : Option (List String)
  rest : String
deriving DecidableEq

namespace DidDocument

def verificationMethodIdsForRole (document : DidDocument) : KeyRole → Option (List String)
  | .authentication => document.authentication
  | .assertionMethod => document.assertionMethod
  | .keyAgreement => document.keyAgreement
  | .capabilityInvocation => document.capabilityInvocation
  | .capabilityDelegation => document.capabilityDelegation
  | .updateKey => none

/-- The first verification method with the given id and role, each where it is given. -/
def findVerificationMethod (document : DidDocument) (id : Option String)
    (keyRole : Option KeyRole) : Option DidVerificationMethod :=
  let keysForRole := keyRole.bind document.verificationMethodIdsForRole
  let methods := document.verificationMethod.filter fun vm =>
    (keysForRole.map fun keys => keys.contains vm.id).getD true
  match id with
  | some id => methods.find? fun vm => vm.id = id
  | none => methods.head?

/-- The verification method that a signature in the given role is checked with.  A key id is
looked up among all methods of the document, whatever their role. -/
def signingMethod (document : DidDocument) (keyRole : KeyRole) (keyId : Option String) :
    Except TokenError DidVerificationMethod := do
  let keyIdList ← okOr (document.verificationMethodIdsForRole keyRole)
    (.validationFailed ("missing key for role: " ++ keyRole.display))
  let methodId ← okOr (keyId.or keyIdList.head?) (.validationFailed "Missing keyId")
  okOr (document.verificationMethod.find? fun method => method.id = methodId)
    (.validationFailed ("missing verification method: " ++ methodId))

variable {document : DidDocument} {keyRole : KeyRole} {keyId : Option String}
  {method : DidVerificationMethod}

lemma mem_of_signingMethod (h : document.signingMethod keyRole keyId = .ok method) :
    method ∈ document.verificationMethod := by
  simp only [signingMethod, ok_iffs] at h
  obtain ⟨_, _, _, _, h⟩ := h
  exact List.mem_of_find?_eq_some h

def Lists (document : DidDocument) (keyRole : KeyRole) (id : String) : Prop :=
  ∃ ids ∈ document.verificationMethodIdsForRole keyRole, id ∈ ids

/-- The method that is found has the role exactly if the key id, where one is given, has it: without a key id
the method is taken from the list of the role. -/
lemma lists_signingMethod_iff (h : document.signingMethod keyRole keyId = .ok method) :
    document.Lists keyRole method.id ↔ ∀ id ∈ keyId, document.Lists keyRole id := by
  simp only [signingMethod, ok_iffs] at h
  obtain ⟨ids, hids, methodId, hmeth, hfind⟩ := h
  have hid : method.id = methodId := by simpa using List.find?_some hfind
  rw [hid]
  cases keyId with
  | some id =>
    obtain rfl : id = methodId := Option.some.inj hmeth
    simp
  | none =>
    have hmem : methodId ∈ ids := List.mem_of_head? hmeth
    simp only [Option.not_mem_none, false_implies, implies_true, iff_true]
    exact ⟨ids, hids, hmem⟩

end DidDocument

/-! ### Checking signatures -/

/-- What the check of a signature rests on. -/
structure KeyVerification (Key : Type) where
  resolve : String → Except String DidDocument
  /-- The parser of the keys of an algorithm, if the algorithm is there. -/
  keyAlgorithmFromType : KeyAlgorithmType → Option (PublicJwk → Except String Key)
  /-- The leaf key of a certificate chain that passes its checks. -/
  certificateKey : List String → Except String Key
  verifySignature : Key → Bytes → Bytes → Except String Unit

namespace KeyVerification

variable {Key : Type} (kv : KeyVerification Key)

def parseJwk (algorithm : KeyAlgorithmType) (jwk : PublicJwk) : Except TokenError Key := do
  let parse ← okOr (kv.keyAlgorithmFromType algorithm) (.nested "getting key algorithm")
  (parse jwk).mapError fun _ => .nested "parsing JWK"

def publicKeyFromDid (keyRole : KeyRole) (did : String) (keyId : Option String)
    (algorithm : KeyAlgorithmType) : Except TokenError Key := do
  let document ← (kv.resolve did).mapError fun _ => .nested "resolving DID"
  let method ← document.signingMethod keyRole keyId
  kv.parseJwk algorithm method.publicKeyJwk

def publicKey (keyRole : KeyRole) (source : PublicKeySource) (algorithm : KeyAlgorithmType) :
    Except TokenError Key :=
  match source with
  | .did did keyId => kv.publicKeyFromDid keyRole did keyId algorithm
  | .x5c chain => (kv.certificateKey chain).mapError fun _ => .nested "parsing PEM chain"
  | .jwk jwk => kv.parseJwk algorithm jwk

def verify (keyRole : KeyRole) : TokenVerifier := fun source algorithm token signature => do
  let publicKey ← kv.publicKey keyRole source algorithm
  (kv.verifySignature publicKey token signature).mapError fun _ => .nested "verifying signature"

variable {algorithm : KeyAlgorithmType} {keyRole : KeyRole} {did : String} {keyId : Option String}

lemma verify_eq_ok_iff {source : PublicKeySource} {token signature : Bytes} :
    kv.verify keyRole source algorithm token signature = .ok () ↔
      ∃ key, kv.publicKey keyRole source algorithm = .ok key ∧
        kv.verifySignature key token signature = .ok () := by
  simp [verify, ok_iffs]

lemma publicKeyFromDid_eq_ok_iff {key : Key} :
    kv.publicKeyFromDid keyRole did keyId algorithm = .ok key ↔
      ∃ document method, kv.resolve did = .ok document ∧
        document.signingMethod keyRole keyId = .ok method ∧
        kv.parseJwk algorithm method.publicKeyJwk = .ok key := by
  simp [publicKeyFromDid, ok_iffs]

/-! ### Keys of another role -/

/-- The key that a signature of a DID is checked with is listed under the role. -/
def UsesListedKey (keyRole : KeyRole) (did : String) (keyId : Option String) : Prop :=
  ∃ document method, kv.resolve did = .ok document ∧
    document.signingMethod keyRole keyId = .ok method ∧ document.Lists keyRole method.id

/-- The key of a signature that is accepted is listed under the role exactly if the token names no key, or a
key that is listed there. -/
theorem usesListedKey_iff {token signature : Bytes}
    (h : kv.verify keyRole (.did did keyId) algorithm token signature = .ok ()) :
    kv.UsesListedKey keyRole did keyId ↔
      ∀ id ∈ keyId, ∃ document, kv.resolve did = .ok document ∧ document.Lists keyRole id := by
  obtain ⟨key, hkey, -⟩ := (kv.verify_eq_ok_iff).1 h
  obtain ⟨document, method, hrsv, hmth, -⟩ := (kv.publicKeyFromDid_eq_ok_iff).1 hkey
  simp [UsesListedKey, hrsv, hmth, document.lists_signingMethod_iff hmth]

/-- A document with one key for authentication and another one for key agreement, and any signature. -/
def sampleRoles : KeyVerification Unit where
  resolve did := .ok ⟨did, ["auth", "agree"].map fun id => ⟨id, "JsonWebKey2020", did,
      .okp ⟨none, none, none, "Ed25519", "", none⟩⟩,
    some ["auth"], some ["auth"], some ["agree"], none, none, ""⟩
  keyAlgorithmFromType _ := some fun _ => .ok ()
  certificateKey _ := .error ""
  verifySignature _ _ _ := .ok ()

/-- The key for key agreement authenticates. -/
theorem agreement_key_authenticates :
    sampleRoles.verify .authentication (.did "did:web:a" (some "agree")) .eddsa [] [] = .ok () ∧
      ¬sampleRoles.UsesListedKey .authentication "did:web:a" (some "agree") := by
  refine ⟨rfl, ?_⟩
  rintro ⟨document, method, hrsv, hmth, ids, hids, hmem⟩
  cases hrsv
  cases hmth
  cases hids
  revert hmem
  decide

theorem listed_key_authenticates :
    sampleRoles.UsesListedKey .authentication "did:web:a" (some "auth") := by
  have hacc : sampleRoles.verify .authentication (.did "did:web:a" (some "auth")) .eddsa [] [] =
    .ok () := rfl
  refine (usesListedKey_iff _ hacc).2 fun id hid => ?_
  obtain rfl : "auth" = id := Option.some.inj hid
  exact ⟨_, rfl, ["auth"], rfl, by simp⟩

end KeyVerification

end OneCore
