/-
# Revocation

The states of a credential in a status list and the entries of the lists.
-/
import OneCore.Model.Verification

namespace OneCore.Revocation

inductive RevocationState where
  | valid
  | revoked
  | suspended (suspendEndDate : Option Timestamp)
deriving DecidableEq

inductive RevocationListEntryStatus where
  | active
  | revoked
  | suspended
deriving DecidableEq

/-- What is written to the entry of a credential that is brought into a state. -/
def RevocationState.toEntryStatus : RevocationState → RevocationListEntryStatus
  | .valid => .active
  | .revoked => .revoked
  | .suspended _ => .suspended

/-- The state that the status of an entry stands for; the lists do not tell when a suspension ends. -/
def RevocationListEntryStatus.state : RevocationListEntryStatus → RevocationState
  | .active => .valid
  | .revoked => .revoked
  | .suspended => .suspended none

inductive RevocationListPurpose where
  | revocation
  | suspension
  | revocationAndSuspension
deriving DecidableEq

/-- The entry of a list; an entry that is found by a serial number has no index. -/
structure RevocationListEntry where
  index : Option Nat
  status : RevocationListEntryStatus

inductive IoError where
  | unexpectedEof
  | other (message : String)
deriving DecidableEq

/-- base64url without padding, which gives back what was put in. -/
structure Base64Library where
  encode : Bytes → Except String Str
  decode : Str → Except String Bytes
  lossless : ∀ bytes, ∃ text, encode bytes = .ok text ∧ decode text = .ok bytes

lemma Base64Library.decode_of_encode {base64 : Base64Library} {bytes : Bytes} {text : Str}
    (h : base64.encode bytes = .ok text) : base64.decode text = .ok bytes := by
  obtain ⟨text', henc, hdec⟩ := base64.lossless bytes
  rwa [Except.ok.inj (h.symm.trans henc)]

/-- A base64 that writes each byte as one character. -/
def Base64Library.sample : Base64Library where
  encode bytes := .ok (bytes.map fun byte => Char.ofNat byte.toNat)
  decode text := .ok (text.map fun c => UInt8.ofNat c.toNat)
  lossless bytes := by
    refine ⟨_, rfl, congrArg Except.ok ?_⟩
    have hchar : ∀ n : Fin 256, (Char.ofNat n.val).toNat = n.val := by decide +kernel
    have hbyte : ∀ byte : UInt8, UInt8.ofNat (Char.ofNat byte.toNat).toNat = byte := by
      intro byte
      rw [hchar ⟨byte.toNat, byte.toNat_lt⟩, UInt8.ofNat_toNat]
    rw [List.map_map]
    exact List.map_id'' hbyte bytes

end OneCore.Revocation
