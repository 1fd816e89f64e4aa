/-
# What a peer may send

The decoders of what a peer writes or notifies.  Each of them answers what it cannot read with an
error, except that of a chunk of the proximity protocol: it takes four bytes for granted.
-/
import OneCore.IsoMdl.Transfer
import OneCore.Lib.BigEndian

namespace OneCore.Proximity

open List BigEndian Mdoc
open Except (ok_bind Survives)

/-- A decoder ends with a value, with an error or in a panic. -/
abbrev Decoded (α : Type) := Except (Fault String) α

/-! ### Chunks, sizes and reports -/

def splitAt (b : Bytes) (mid : ℕ) : Decoded (Bytes × Bytes) := do
  ensure (mid ≤ b.length) (.panic "mid > len")
  return (b.take mid, b.drop mid)

def fromBeBytes (message : String) : Bytes → Decoded UInt16
  | [hi, lo] => .ok (.ofNat (value hi lo))
  | _ => .error (.error message)

def crcBit (c : UInt16) : UInt16 := if c < 0x8000 then c <<< 1 else c <<< 1 ^^^ 0x1021

/-- CRC-16/IBM-3740. -/
def crc (b : Bytes) : UInt16 :=
  b.foldl (fun (c : UInt16) x => crcBit^[8] (c ^^^ (x.toUInt16 <<< (8 : UInt16)))) 0xFFFF

structure Chunk where
  index : UInt16
  payload : Bytes
  checksum : UInt16

def Chunk.new (index : UInt16) (payload : Bytes) : Chunk :=
  ⟨index, payload, crc (bytes index.toNat ++ payload)⟩

def Chunk.toBytes (c : Chunk) : Bytes := bytes c.index.toNat ++ c.payload ++ bytes c.checksum.toNat

def Chunk.fromBytes (b : Bytes) : Decoded Chunk := do
  let (index, rest) ← splitAt b 2
  ensure (2 ≤ rest.length) (.panic "attempt to subtract with overflow")
  let (payload, checksum) ← splitAt rest (rest.length - 2)
  let chunkIndex ← fromBeBytes "Failed to read chunk index" index
  let received ← fromBeBytes "Failed to read checksum" checksum
  let calculated := crc (index ++ payload)
  ensure (received = calculated)
    (.error s!"Invalid checksum. Computed: {calculated}, received: {received}")
  return ⟨chunkIndex, payload, received⟩

inductive ProtocolVersion where
  | v1
  | v2

structure IdentityRequest where
  key : Bytes
  nonce : Bytes
  version : ProtocolVersion

def IdentityRequest.versionOf : ℕ → Decoded ProtocolVersion
  | 44 => .ok .v1
  | 45 => .ok .v2
  | len => .error (.error s!"Invalid identity request size: {len}")

def IdentityRequest.parse (data : Bytes) : Decoded IdentityRequest := do
  let version ← versionOf data.length
  let (key, nonce) ← splitAt (data.take 44) 32
  return ⟨key, nonce, version⟩

def parseMessageSize : Bytes → Decoded UInt16 := fromBeBytes "cannot convert request to [u8; 2]"

def parseTransferSummaryReport (data : Bytes) : Decoded (List UInt16) :=
  (data.chunks 2).mapM (fromBeBytes "Failed to convert chunk to [u8; 2]")

/-! ### Device engagement -/

/-- A MAC address is kept as the six bytes of its text. -/
structure BleOptions where
  peripheralServerUuid : Bytes
  peripheralServerMacAddress : Option Bytes

structure DeviceEngagement where
  security : Bytes
  deviceRetrievalMethods : List BleOptions

def getCborMapValue (map : List (CborValue × CborValue)) (key : Int) : Option CborValue :=
  (map.find? fun e => e.1.asInteger = some key).map Prod.snd

def deserializeBleOptions : CborValue → Except String BleOptions
  | .map map => do
    match ← okOr (getCborMapValue map 0) "Missing BleOptions peripheral_server_mode_supported" with
    | .bool true => pure ()
    | _ => .error "Invalid BleOptions peripheral_server_mode_supported"
    let uuid ← okOr (getCborMapValue map 10) "Missing BleOptions peripheral_server_uuid"
    let uuid ← okOr uuid.asBytes "Invalid BleOptions peripheral_server_uuid"
    let address ← (getCborMapValue map 20).mapM fun address =>
      okOr (address.asBytes.filter (·.length = 6)) "Invalid BleOptions peripheral_server_mac_address"
    ensure (uuid.length = 16) "Invalid BleOptions peripheral_server_uuid"
    return ⟨uuid, address⟩
  | _ => .error "Invalid BleOptions"

def deserializeDeviceRetrievalMethod : CborValue → Except String BleOptions
  | .array (type :: version :: options :: _) => do
    ensure (type.asInteger = some 2) "Invalid DeviceRetrievalMethod type"
    ensure (version.asInteger = some 1) "Invalid DeviceRetrievalMethod version"
    deserializeBleOptions options
  | _ => .error "Invalid DeviceRetrievalMethod"

structure Environment where
  decodeBase64 : Str → Except String Bytes
  decodeCbor : Bytes → Except String CborValue
  decodeKey : CborValue → Except String Bytes

variable (env : Environment)

def deserializeSecurity : CborValue → Except String Bytes
  | .array (version :: keyBytes :: _) => do
    ensure (version.asInteger = some 1) "Invalid Security version"
    env.decodeKey keyBytes
  | _ => .error "Invalid Security"

def DeviceEngagement.fromRawCbor (data : Bytes) : Except String DeviceEngagement := do
  let .map map ← env.decodeCbor data | .error "Invalid DeviceEngagement"
  let version ← okOr (getCborMapValue map 0) "Missing DeviceEngagement version"
  ensure (version.asText = some "1.0".toList) "Invalid DeviceEngagement version"
  let security ← okOr (getCborMapValue map 1) "Missing DeviceEngagement security"
  let methods ← match getCborMapValue map 2 with
    | none => pure []
    | some (.array methods) => pure methods
    | some _ => .error "Invalid DeviceEngagement device_retrieval_methods"
  return ⟨← deserializeSecurity env security, ← methods.mapM deserializeDeviceRetrievalMethod⟩

def DeviceEngagement.parseQrCode (content : Str) : Decoded DeviceEngagement := do
  ensure ("mdoc:".toList <+: content) (.error ("Invalid mdoc QR: " ++ String.ofList content))
  ensure (5 ≤ content.length) (.panic "start > len")
  let data ← (env.decodeBase64 (content.drop 5)).mapError .error
  (fromRawCbor env data).mapError .error

/-! ### No peer ends the process -/

lemma survives_fromBeBytes (message : String) (b : Bytes) : Survives (fromBeBytes message b) := by
  unfold fromBeBytes
  split <;> exact nofun

lemma splitAt_of_le {b : Bytes} {mid : ℕ} (h : mid ≤ b.length) :
    splitAt b mid = .ok (b.take mid, b.drop mid) := by
  simp [splitAt, Except.ensure, h, bind, Except.bind, pure, Except.pure]

lemma survives_parse (data : Bytes) : Survives (IdentityRequest.parse data) := by
  unfold IdentityRequest.parse IdentityRequest.versionOf
  split
  case h_3 => exact nofun
  all_goals
    rename_i h
    rw [splitAt_of_le (by simp [h])]
    exact .ok _

variable {b : Bytes}

lemma survives_fromBytes_iff : Survives (Chunk.fromBytes b) ↔ 4 ≤ b.length := by
  constructor
  · intro h
    by_contra hlt
    rcases b with _ | ⟨_, _ | ⟨_, _ | ⟨_, _ | _⟩⟩⟩
    · exact h _ rfl
    · exact h _ rfl
    · exact h _ rfl
    · exact h _ rfl
    · simp at hlt
  · intro h
    have hrest : 2 ≤ (b.drop 2).length := by
      rw [length_drop]
      omega
    rw [Chunk.fromBytes, splitAt_of_le (by omega)]
    simp only [Except.ensure, hrest, if_true, ok_bind, splitAt_of_le (Nat.sub_le _ _)]
    refine (survives_fromBeBytes _ _).bind fun _ _ => (survives_fromBeBytes _ _).bind fun _ _ => ?_
    exact (Survives.ensure _ _).bind fun _ _ => .ok _

/-- A chunk is read back if its checksum is that of its contents. -/
lemma fromBytes_toBytes_iff {c : Chunk} :
    Chunk.fromBytes c.toBytes = .ok c ↔ c = .new c.index c.payload := by
  obtain ⟨index, payload, checksum⟩ := c
  have hread : ∀ (n : UInt16) e, fromBeBytes e (bytes n.toNat) = .ok n := by
    simp only [fromBeBytes, bytes, value_ofNat, Except.ok.injEq]
    simp
  have hsplit : splitAt (Chunk.toBytes ⟨index, payload, checksum⟩) 2 =
      .ok (bytes index.toNat, payload ++ bytes checksum.toNat) := by
    simp [splitAt_of_le, Chunk.toBytes, bytes]
  have hlen : (payload ++ bytes checksum.toNat).length = payload.length + 2 := by
    simp [bytes]
  rw [Chunk.fromBytes, hsplit]
  simp only [Except.ensure, hlen, Nat.le_add_left, if_true, ok_bind, Nat.add_sub_cancel,
    splitAt_of_le (hlen ▸ Nat.le_add_right _ _), take_left, drop_left, hread]
  by_cases h : checksum = crc (bytes index.toNat ++ payload) <;> simp [Chunk.new, h, bind, Except.bind,
    pure, Except.pure]

variable (b) in
/-- No decoder panics, and the chunk is read back. -/
def Hardened (content : Str) (c : Chunk) : Prop :=
  Survives (Chunk.fromBytes b) ∧ Survives (IdentityRequest.parse b) ∧ Survives (parseMessageSize b) ∧
  Survives (parseTransferSummaryReport b) ∧ Survives ((IsoMdl.Chunk.tryFrom b).mapError .error) ∧
  Survives ((DeviceEngagement.fromRawCbor env b).mapError .error) ∧
  Survives (DeviceEngagement.parseQrCode env content) ∧ Chunk.fromBytes c.toBytes = .ok c

/-- Only a chunk of less than four bytes is not survived. -/
theorem hardened_iff (content : Str) (c : Chunk) : Hardened env b content c ↔
    4 ≤ b.length ∧ c = .new c.index c.payload := by
  rw [← survives_fromBytes_iff, ← fromBytes_toBytes_iff]
  refine ⟨fun h => ⟨h.1, h.2.2.2.2.2.2.2⟩, fun ⟨hb, hc⟩ => ⟨hb, survives_parse b,
    survives_fromBeBytes _ b, .mapM (survives_fromBeBytes _) _, .mapError _, .mapError _, ?_, hc⟩⟩
  refine .bind (.ensure _ _) fun _ hpre => ?_
  have hlen : 5 ≤ content.length := (ensure_eq_ok.1 hpre).length_le
  rw [ensure, if_pos hlen]
  exact (Survives.mapError _).bind fun _ _ => .mapError _

theorem short_chunk_panics :
    Chunk.fromBytes [0, 1, 2] = .error (.panic "attempt to subtract with overflow") ∧
    ∀ env content c, ¬Hardened env [0, 1, 2] content c :=
  ⟨rfl, fun _ _ _ h => h.1 _ rfl⟩

end OneCore.Proximity
