/-
# Key binding tokens

The holder binds a token to a presentation: the hash of the token, up to and with its last `~`, is
signed in a key binding token that is appended to it.  The verifier cuts this token off again and
hashes what is before it.  Both sides have to agree on where the cut is, also if there are no
disclosures between the JWT and the key binding token.
-/
import OneCore.Presentation.Formatters
import OneCore.SdJwt.Token

namespace OneCore.SdJwt

open List
open Presentation (KeyBindingPayload)
open Presentation.SdJwt (HolderBindingCtx hashedPart)

/-- What the holder makes key binding tokens with. -/
structure HolderSigner where
  now : Timestamp
  joseAlg : Option String
  hashBase64Url : Str → Except String String
  /-- The text of the signed token with the given algorithm and payload. -/
  tokenize : String → JWTPayload KeyBindingPayload → Except FormatterError Str

variable (signer : HolderSigner) (ctx : HolderBindingCtx)

def keyBindingPayload (sdHash : String) : JWTPayload KeyBindingPayload :=
  ⟨some signer.now, none, none, some [ctx.audience], ⟨ctx.nonce, sdHash⟩⟩

def appendKeyBindingToken (token : Str) : Except FormatterError Str := do
  let alg ← okOr signer.joseAlg (.couldNotFormat "Invalid key algorithm")
  let sdHash ← (signer.hashBase64Url token).mapError .library
  let kbToken ← signer.tokenize alg (keyBindingPayload signer ctx sdHash)
  return token ++ kbToken

variable {jwt kbToken : Str} {disclosures : List Str}

lemma tokenParts_append_keyBinding (hjwt : '~' ∉ jwt) (hdiscs : ∀ d ∈ disclosures, '~' ∉ d ∧ d ≠ [])
    (hkb : '~' ∉ kbToken) (hdot : '.' ∈ kbToken) :
    tokenParts (appendDisclosures jwt disclosures ++ kbToken) =
      ⟨jwt, disclosures, some kbToken⟩ := by
  rw [appendDisclosures_eq fun d hd => (hdiscs d hd).2, append_assoc, singleton_append, tokenParts,
    rsplitOnce_append hkb]
  simp only [ne_nil_of_mem hdot, hdot, ne_eq, not_false_eq_true, and_self, if_true]
  exact TokenParts.ofText_intercalate hjwt (fun d hd => (hdiscs d hd).1) _

lemma hashedPart_append (hkb : '~' ∉ kbToken) (s : Str) :
    hashedPart (s ++ '~' :: kbToken) = some (s ++ ['~']) := by
  have hdrop : (s ++ '~' :: kbToken).reverse.dropWhile (· ≠ '~') = '~' :: s.reverse := by
    rw [reverse_append, reverse_cons, append_assoc, dropWhile_append_of_pos]
    · simp
    · simpa using fun c hc => ne_of_mem_of_not_mem hc hkb
  rw [hashedPart, hdrop]
  simp

variable {signer ctx} {env : Environment} {decoded : List Disclosure} {token : Str}

def sampleSigner : HolderSigner where
  now := 0
  joseAlg := some "EdDSA"
  hashBase64Url s := .ok (String.ofList s)
  tokenize _ _ := .ok ['k', '.']

end OneCore.SdJwt
