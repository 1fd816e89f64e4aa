/-
# Selective disclosure in SD-JWTs

The issuer replaces each claim by the digest of a *disclosure*: the text of an array of a salt, the
key and the value of the claim.  The digests of an object are listed in its field `_sd`; an element of
an array is replaced by an object with the digest in its only field `...`.  The value inside a
disclosure has digests in place of its own claims, so the disclosures form a tree that is linked by
digests.  The holder hands on some of the disclosures, and the verifier puts them back in place.

The salts are drawn one after the other; a function that draws them takes and returns the number of
those that are used up.  The walks of the holder and the verifier follow the digests wherever they
lead.  They take a bound on the depth of the recursion, and `unfinished` says that it was too small.
A hash map is the list of its entries, as before.
-/
import OneCore.Model.Json
import OneCore.SdJwt.VcFormatter

namespace OneCore.SdJwt

open SdJwtVcFormatter (extendClaims)

/-- The key of the digests of an object. -/
def selectiveDisclosureMarker : Str := "_sd".toList

/-- The key of the digest of an element of an array. -/
def selectiveDisclosureArrayMarker : Str := "...".toList

/-- A disclosure, with the text of its array and the encoding of this text. -/
structure Disclosure where
  salt : Str
  /-- The key of a claim; the elements of arrays have none. -/
  key : Option Str
  value : JsonValue
  disclosureArray : Str
  disclosure : Str

/-- The libraries underneath, and the source of salts. -/
structure Environment where
  printJson : JsonValue → Str
  parseJson : Str → Except FormatterError JsonValue
  stringToB64url : Str → Except FormatterError Str
  b64urlToString : Str → Except FormatterError Str
  hashBase64Url : Str → Except FormatterError Str
  generateSalt : Nat → Str

/-- A walk along the digests fails, or it is not at its end within the bound on its depth. -/
inductive WalkError where
  | failed (e : FormatterError)
  | unfinished

/-- A walk returns a value: it does so with every bound that is large enough. -/
def Returns {α : Type*} (walk : Nat → Except WalkError α) (a : α) : Prop :=
  ∃ bound₀, ∀ bound ≥ bound₀, walk bound = .ok a

lemma Returns.unique {α : Type*} {walk : Nat → Except WalkError α} {a b : α} (ha : Returns walk a)
    (hb : Returns walk b) : a = b := by
  obtain ⟨n, hn⟩ := ha
  obtain ⟨m, hm⟩ := hb
  exact Except.ok.inj ((hn (max n m) (Nat.le_max_left n m)).symm.trans (hm _ (Nat.le_max_right n m)))

def sdObject (digests : List Str) : JsonValue :=
  .object [(selectiveDisclosureMarker, .array (digests.map .string))]

def sdElement (digest : Str) : JsonValue :=
  .object [(selectiveDisclosureArrayMarker, .string digest)]

def sdArray (digests : List Str) : JsonValue := .array (digests.map sdElement)

/-! ### The issuer -/

section Issuer

variable (env : Environment)

/-- The disclosure of a claim, with the given salt. -/
def computeDisclosureFor (key : Str) (value : JsonValue) (n : Nat) : Except FormatterError Str :=
  env.stringToB64url (env.printJson (.array [.string (env.generateSalt n), .string key, value]))

def computeDisclosureForArrayElement (value : JsonValue) (n : Nat) : Except FormatterError Str :=
  env.stringToB64url (env.printJson (.array [.string (env.generateSalt n), value]))

/-- Disclosures, their digests at the upper level, and the number of salts used. -/
structure Computed where
  disclosures : List Str
  digests : List Str
  salts : Nat

/-- The value that goes into a disclosure, with the disclosures that it refers to. -/
structure Nested where
  disclosures : List Str
  value : JsonValue
  salts : Nat

mutual

/-- The value of a claim or of an element: objects and, if asked for, arrays are replaced. -/
def computeNested (sdArrayElements : Bool) : JsonValue → Nat → Except FormatterError Nested
  | .object fields, n => do
    let nested ← computeFieldDisclosures sdArrayElements fields n
    return ⟨nested.disclosures, sdObject nested.digests, nested.salts⟩
  | .array values, n =>
    if sdArrayElements then do
      let nested ← computeElementDisclosures values n
      return ⟨nested.disclosures, sdArray nested.digests, nested.salts⟩
    else .ok ⟨[], .array values, n⟩
  | value, n => .ok ⟨[], value, n⟩

def computeFieldDisclosures (sdArrayElements : Bool) :
    List (Str × JsonValue) → Nat → Except FormatterError Computed
  | [], n => .ok ⟨[], [], n⟩
  | (key, value) :: fields, n => do
    let nested ← computeNested sdArrayElements value n
    let disclosure ← computeDisclosureFor env key nested.value nested.salts
    let hashedDisclosure ← env.hashBase64Url disclosure
    let rest ← computeFieldDisclosures sdArrayElements fields (nested.salts + 1)
    return ⟨nested.disclosures ++ disclosure :: rest.disclosures, hashedDisclosure :: rest.digests,
      rest.salts⟩

/-- The loop over the elements of an array, which is only taken if elements are replaced. -/
def computeElementDisclosures : List JsonValue → Nat → Except FormatterError Computed
  | [], n => .ok ⟨[], [], n⟩
  | value :: values, n => do
    let nested ← computeNested true value n
    let disclosure ← computeDisclosureForArrayElement env nested.value nested.salts
    let hashedDisclosure ← env.hashBase64Url disclosure
    let rest ← computeElementDisclosures values (nested.salts + 1)
    return ⟨nested.disclosures ++ disclosure :: rest.disclosures, hashedDisclosure :: rest.digests,
      rest.salts⟩

end

/-- The disclosures of an object and the digests that stand for its claims. -/
def computeObjectDisclosures (value : JsonValue) (sdArrayElements : Bool) (n : Nat) :
    Except FormatterError Computed :=
  match value with
  | .object fields => computeFieldDisclosures env sdArrayElements fields n
  | _ => .error (.jsonMapping "value is not an Object")

/-- The disclosures of an array and the digests that stand for its elements. -/
def computeArrayDisclosures (value : JsonValue) (n : Nat) : Except FormatterError Computed :=
  match value with
  | .array values => computeElementDisclosures env values n
  | _ => .error (.jsonMapping "value is not an array")

end Issuer

/-! ### Reading disclosures -/

section Parse

variable (env : Environment)

def saltField : Str := "salt".toList
def keyField : Str := "key".toList
def valueField : Str := "value".toList

def asString : JsonValue → Option Str
  | .string s => some s
  | _ => none

/-- The salt, key and value of a disclosure array.  They are also read from an object. -/
def readDisclosureArray : JsonValue → Option (Str × Str × JsonValue)
  | .array [.string salt, .string key, value] => some (salt, key, value)
  | .object fields => do
    let salt ← (fields.lookup saltField).bind asString
    let key ← (fields.lookup keyField).bind asString
    let value ← fields.lookup valueField
    return (salt, key, value)
  | _ => none

def readDisclosureArrayElement : JsonValue → Option (Str × JsonValue)
  | .array [.string salt, value] => some (salt, value)
  | .object fields => do
    let salt ← (fields.lookup saltField).bind asString
    let value ← fields.lookup valueField
    return (salt, value)
  | _ => none

/-- Read a disclosure array, of a claim if it can be one and else of an element. -/
def parseDisclosure (disclosureArray disclosure : Str) : Except FormatterError Disclosure := do
  let json ← env.parseJson disclosureArray
  match readDisclosureArray json with
  | some (salt, key, value) => return ⟨salt, some key, value, disclosureArray, disclosure⟩
  | none =>
    match readDisclosureArrayElement json with
    | some (salt, value) => return ⟨salt, none, value, disclosureArray, disclosure⟩
    | none => .error (.library "expecting [<salt>, <value>] array")

def decodeDisclosure (disclosure : Str) : Except FormatterError Disclosure := do
  let disclosureArray ← env.b64urlToString disclosure
  parseDisclosure env disclosureArray disclosure

def Disclosure.hashDisclosure (d : Disclosure) : Except FormatterError Str :=
  env.hashBase64Url d.disclosure

/-- Tokens of an earlier version hash the array and not its encoding. -/
def Disclosure.hashDisclosureArray (d : Disclosure) : Except FormatterError Str :=
  env.hashBase64Url d.disclosureArray

end Parse

/-! ### The verifier -/

section Verifier

/-- A disclosure with its digests, the present and the earlier one. -/
structure HashedDisclosure where
  disclosure : Disclosure
  hash : Str
  arrayHash : Str

def hashDisclosures (env : Environment) (disclosures : List Disclosure) :
    Except FormatterError (List HashedDisclosure) :=
  disclosures.mapM fun d => do
    return ⟨d, ← d.hashDisclosure env, ← d.hashDisclosureArray env⟩

variable (disclosures : List HashedDisclosure)

def findDisclosure (hash : Str) : Option Disclosure :=
  (disclosures.find? fun d => hash = d.hash ∨ hash = d.arrayHash).map HashedDisclosure.disclosure

/-- One round of the loop over the digests of an object. -/
def gatherStep (result : List (Str × CredentialClaim)) (hash : Str) :
    Except FormatterError (List (Str × CredentialClaim)) :=
  match findDisclosure disclosures hash with
  | none => .ok result
  | some disclosure => do
    let value ← CredentialClaimValue.tryFrom disclosure.value
    match disclosure.key with
    | some key => return mapInsert key (.mk true false value) result
    -- skip over array disclosures
    | none => return result

/-- The claims that stand behind some digests. -/
def gatherDisclosuresFromSd (sdHashes : List Str) :
    Except FormatterError (List (Str × CredentialClaim)) :=
  sdHashes.foldlM (gatherStep disclosures) []

def claimAsStr : CredentialClaim → Option Str
  | .mk _ _ (.string s) => some s
  | _ => none

def gatherObjectSdHashes (claims : List (Str × CredentialClaim)) : List Str :=
  match claims.lookup selectiveDisclosureMarker with
  | some (.mk _ _ (.array values)) => values.filterMap claimAsStr
  | _ => []

def gatherInsertablesFromObject (map : List (Str × CredentialClaim)) :
    Except FormatterError (List (Str × CredentialClaim)) :=
  let sdHashes := gatherObjectSdHashes map
  if sdHashes = [] then .ok [] else gatherDisclosuresFromSd disclosures sdHashes

/-- The digest that an element of an array consists of. -/
def elementSdHash : CredentialClaim → Option Str
  | .mk _ _ (.object [(key, value)]) =>
    if key = selectiveDisclosureArrayMarker then claimAsStr value else none
  | _ => none

/-- Put the disclosure of an element in its place. -/
def expandElement (claim : CredentialClaim) : Except FormatterError CredentialClaim :=
  match (elementSdHash claim).bind (findDisclosure disclosures) with
  | some disclosure => do return .mk true false (← CredentialClaimValue.tryFrom disclosure.value)
  | none => .ok claim

def expandArrayElementsInPlace (array : List CredentialClaim) :
    Except FormatterError (List CredentialClaim) :=
  array.mapM (expandElement disclosures)

/-- Put the disclosures in the places of their digests, in all of a claim. -/
def recursivelyExpandDisclosures : Nat → CredentialClaim → Except WalkError CredentialClaim
  | 0, _ => .error .unfinished
  | bound + 1, .mk sd md (.object map) => do
    let values ← (gatherInsertablesFromObject disclosures map).mapError .failed
    let map := map.filter fun entry => entry.1 ≠ selectiveDisclosureMarker
    let map ← (extendClaims map values).mapM fun entry => do
      return (entry.1, ← recursivelyExpandDisclosures bound entry.2)
    return .mk sd md (.object map)
  | bound + 1, .mk sd md (.array array) => do
    let array ← (expandArrayElementsInPlace disclosures array).mapError .failed
    let array ← array.mapM (recursivelyExpandDisclosures bound)
    return .mk sd md (.array array)
  | _ + 1, claims => .ok claims

/-- The payload of a token with the disclosures of the token in place, after the check of the
signature. -/
def expandedPayload (env : Environment) (bound : Nat) (disclosures : List Str)
    (payload : JsonValue) : Except WalkError CredentialClaim := do
  let disclosures ← (disclosures.mapM (decodeDisclosure env)).mapError .failed
  let disclosuresWithHashes ← (hashDisclosures env disclosures).mapError .failed
  let payloadBeforeExpanding ← (CredentialClaimValue.tryFrom payload).mapError .failed
  recursivelyExpandDisclosures disclosuresWithHashes bound (.mk false false payloadBeforeExpanding)

end Verifier

/-! ### The holder -/

section Holder

/-- Add a path to the leaves, unless it is one of an intermediary claim. -/
def insertLeaf (leafs : List Str) (key : Str) : List Str :=
  if leafs.any fun leaf => (key ++ [nestedClaimMarker]).isPrefixOf leaf then leafs
  else leafs.insert key

/-- The paths that no other path continues.  The reverse order has children before their parents. -/
def pathsToLeafs (presentedPaths : List Str) : List Str :=
  (presentedPaths.mergeSort fun a b => b ≤ a).foldl insertLeaf []

/-- Add a disclosure under both of its digests. -/
def insertDigests (env : Environment) (digests : List (Str × Disclosure)) (d : Disclosure) :
    Except FormatterError (List (Str × Disclosure)) := do
  let old ← d.hashDisclosureArray env
  let current ← d.hashDisclosure env
  return mapInsert current d (mapInsert old d digests)

def computeDigests (env : Environment) (disclosures : List Disclosure) :
    Except FormatterError (List (Str × Disclosure)) :=
  disclosures.foldlM (insertDigests env) []

def sdHashes (claims : List (Str × JsonValue)) : List Str :=
  match claims.lookup selectiveDisclosureMarker with
  | some (.array values) => values.filterMap asString
  | _ => []

variable (allDigests : List (Str × Disclosure))

def arrayElementDisclosure : JsonValue → Option Disclosure
  | .object [(key, .string sdHash)] =>
    if key = selectiveDisclosureArrayMarker then allDigests.lookup sdHash else none
  | _ => none

def objectDisclosures (claims : List (Str × JsonValue)) : List Disclosure :=
  (sdHashes claims).filterMap fun hash => allDigests.lookup hash

/-- All disclosures that a value refers to, directly or through other disclosures. -/
def collectAllSubdisclosures : Nat → JsonValue → Except WalkError (List Str)
  | 0, _ => .error .unfinished
  | bound + 1, .array elements =>
    Except.flatMapM elements fun element =>
      match arrayElementDisclosure allDigests element with
      | none => .ok []
      | some d => do return d.disclosure :: (← collectAllSubdisclosures bound d.value)
  | bound + 1, .object claims =>
    Except.flatMapM (objectDisclosures allDigests claims) fun d => do
      return (← collectAllSubdisclosures bound d.value) ++ [d.disclosure]
  | _ + 1, _ => .ok []

/-- The number of addressable elements. -/
def usizeBound : Nat := 2 ^ 64

/-- The disclosures on the way along a key, and the value at its end unless a part of the key is not
found in an object.  Such a key may be one of a metadata claim. -/
def selectAlong (disclosedKey : Str) :
    List Str → JsonValue → Except FormatterError (List Str × Option JsonValue)
  | [], node => .ok ([], some node)
  | keyPart :: parts, .array claims => do
    let index ← (Decimal.parse usizeBound keyPart).mapError fun err => .couldNotFormat
      ("Key `" ++ String.ofList keyPart ++ "` is not a valid array index: " ++ err.display)
    match claims[index]? with
    | none => .error (.couldNotFormat ("Index `" ++ toString index ++ "` from key `" ++
        String.ofList disclosedKey ++ "` is out of bounds: array length is " ++
        toString claims.length))
    | some child =>
      match arrayElementDisclosure allDigests child with
      | some d => do
        let rest ← selectAlong disclosedKey parts d.value
        return (d.disclosure :: rest.1, rest.2)
      -- plain child
      | none => selectAlong disclosedKey parts child
  | keyPart :: parts, .object claims =>
    match claims.lookup keyPart with
    | some child => selectAlong disclosedKey parts child
    | none =>
      match (objectDisclosures allDigests claims).find? fun d => d.key = some keyPart with
      | some d => do
        let rest ← selectAlong disclosedKey parts d.value
        return (d.disclosure :: rest.1, rest.2)
      | none => .ok ([], none)
  | keyPart :: _, _ => .error (.couldNotFormat ("Invalid nesting: child claim `" ++
      String.ofList keyPart ++ "` from key `" ++ String.ofList disclosedKey ++
      "` does not exist"))

/-- The disclosures for one key: those on the way, and those below its end. -/
def selectForKey (bound : Nat) (tokenPayload : JsonValue) (disclosedKey : Str) :
    Except WalkError (List Str) := do
  let (onTheWay, last) ←
    (selectAlong allDigests disclosedKey (disclosedKey.splitOn nestedClaimMarker)
      tokenPayload).mapError .failed
  match last with
  | some node => return onTheWay ++ (← collectAllSubdisclosures allDigests bound node)
  | none => return onTheWay

/-- The disclosures to hand on.  They are kept as a set, so their order is not determined. -/
def selectDisclosures (env : Environment) (bound : Nat) (disclosedKeys : List Str)
    (tokenPayload : JsonValue) (allDisclosures : List Disclosure) :
    Except WalkError (List Str) := do
  let allDigests ← (computeDigests env allDisclosures).mapError .failed
  let result ← Except.flatMapM (pathsToLeafs disclosedKeys)
    (selectForKey allDigests bound tokenPayload)
  return result.eraseDups

/-- The disclosures of a token that are handed on for some keys. -/
def presentedDisclosures (env : Environment) (bound : Nat) (disclosedKeys : List Str)
    (tokenPayload : JsonValue) (disclosures : List Str) : Except WalkError (List Str) := do
  let allDisclosures ← (disclosures.mapM (decodeDisclosure env)).mapError .failed
  selectDisclosures env bound disclosedKeys tokenPayload allDisclosures

end Holder

end OneCore.SdJwt
