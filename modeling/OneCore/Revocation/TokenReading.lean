/-
# Reading a token status list of someone else

The width of the slots, the bits and the index come from two remote documents.  The decoder computes with
machine words, so a width of zero or above eight ends in a division by zero, and a large index in an
overflow.  Of a slot it reads the last two bits only, whatever the bits before them are.
-/
import OneCore.Revocation.TokenStatusList

namespace OneCore.Revocation

open List Option BitPacking
open Except (Survives mapError_ok ok_bind)

/-! ### Computing with machine words -/

def checkedDiv (m n : Nat) : Except String Nat := do
  ensure (n ≠ 0) "attempt to divide by zero"
  pure (m / n)

def checkedMul (m n : Nat) : Except String Nat := do
  ensure (m * n < 2 ^ 64) "attempt to multiply with overflow"
  pure (m * n)

def checkedAdd (m n : Nat) : Except String Nat := do
  ensure (m + n < 2 ^ 64) "attempt to add with overflow"
  pure (m + n)

def checkedSub (m n : Nat) : Except String Nat := do
  ensure (n ≤ m) "attempt to subtract with overflow"
  pure (m - n)

/-- The routine `getMostSignificantBitIndex`, with the message of its panic. -/
def getMostSignificantBitIndexChecked (index bitSize : Nat) : Except String Nat := do
  let wordsInByte ← checkedDiv 8 bitSize
  let wordSize ← checkedDiv 8 wordsInByte
  let byteNumber := (← checkedMul index wordSize) / 8
  let byteStartIndex ← checkedMul 8 byteNumber
  let smallestIndexInByte ← checkedMul byteNumber wordsInByte
  let wordIndexWithinByte ← checkedSub index smallestIndexInByte
  let byteEndIndex ← checkedAdd byteStartIndex 8
  let wordEndIndex ← checkedSub byteEndIndex (← checkedMul wordIndexWithinByte wordSize)
  checkedSub wordEndIndex wordSize

/-- The routine `extractStateFromToken`, with its panics. -/
def extractStateFromTokenChecked (lib : TokenLibrary) (statusList : TokenStatusListSubject)
    (index : Nat) : Except (Fault TokenError) RevocationState := do
  let entrySize := statusList.bits
  let bytes ← (do
    let compressed ← (lib.base64.decode statusList.value).mapError TokenError.base64Decoding
    (lib.zlibDecode compressed).mapError (.ofDecompression index)).mapError .error
  let bits := fromBytes bytes
  let mostSignificantBitIndex ← (getMostSignificantBitIndexChecked index entrySize).mapError .panic
  let suspended ← if entrySize > 1 then do
      let suspensionBitIndex ←
        (do checkedSub (← checkedAdd mostSignificantBitIndex entrySize) 2).mapError .panic
      (okOr bits[suspensionBitIndex]? (.indexOutOfBounds index)).mapError .error
    else pure false
  let revocationBitIndex ←
    (do checkedSub (← checkedAdd mostSignificantBitIndex entrySize) 1).mapError .panic
  let revoked ← (okOr bits[revocationBitIndex]? (.indexOutOfBounds index)).mapError .error
  pure (stateOfBits revoked suspended)

/-- The slots are not wider than a byte, and the bits up to the byte of the index can be counted. -/
def FitsWord (bits index : Nat) : Prop :=
  1 ≤ bits ∧ bits ≤ 8 ∧ index * (8 / (8 / bits)) + 8 < 2 ^ 64

instance (bits index : Nat) : Decidable (FitsWord bits index) :=
  inferInstanceAs (Decidable (_ ∧ _))

def Decodes (lib : TokenLibrary) (token : Str) (bytes : Bytes) : Prop :=
  ∃ compressed, lib.base64.decode token = .ok compressed ∧ lib.zlibDecode compressed = .ok bytes

variable {lib : TokenLibrary} {statusList : TokenStatusListSubject} {bits index : Nat} {token : Str}
  {bytes : Bytes}

lemma getMostSignificantBitIndex_add_lt (h : FitsWord bits index) :
    getMostSignificantBitIndex index bits + bits < 2 ^ 64 := by
  obtain ⟨hpos, hbyte, hfits⟩ := h
  interval_cases bits <;> simp [getMostSignificantBitIndex] <;> omega

lemma getMostSignificantBitIndexChecked_eq_ok_iff {p : Nat} :
    getMostSignificantBitIndexChecked index bits = .ok p ↔
      FitsWord bits index ∧ getMostSignificantBitIndex index bits = p := by
  simp only [getMostSignificantBitIndexChecked, checkedDiv, checkedMul, checkedAdd, checkedSub,
    ok_iffs, exists_unit_iff, and_assoc, exists_and_left, exists_eq_left', ne_eq, FitsWord]
  by_cases hbits : 1 ≤ bits ∧ bits ≤ 8
  · obtain ⟨hpos, hbyte⟩ := hbits
    interval_cases bits <;> simp [getMostSignificantBitIndex] <;> omega
  · refine iff_of_false ?_ fun h => hbits ⟨h.1, h.2.1⟩
    rintro ⟨hpos, hword, -⟩
    rw [Nat.div_eq_zero_iff] at hword
    omega

lemma checkedSub_add_eq_ok {p k : Nat} (hlt : p + bits < 2 ^ 64) (hk : k ≤ bits) :
    (do checkedSub (← checkedAdd p bits) k) = .ok (p + bits - k) := by
  simp only [checkedAdd, checkedSub, ok_iffs, exists_unit_iff]
  exact ⟨p + bits, ⟨hlt, rfl⟩, Nat.le_add_left_of_le hk, rfl⟩

/-- If the numbers fit, the machine finds what is found without a bound on the numbers. -/
lemma extractStateFromTokenChecked_eq (h : FitsWord statusList.bits index) :
    extractStateFromTokenChecked lib statusList index =
      (extractStateFromToken lib statusList index).mapError .error := by
  have hlt := getMostSignificantBitIndex_add_lt h
  have hidx := getMostSignificantBitIndexChecked_eq_ok_iff.2 ⟨h, rfl⟩
  have hrvd := checkedSub_add_eq_ok hlt h.1
  simp only [extractStateFromTokenChecked, extractStateFromToken, readSuspended, hidx, mapError_ok, ok_bind,
    hrvd]
  cases lib.base64.decode statusList.value with
  | error e => rfl
  | ok compressed =>
    simp only [mapError_ok, ok_bind]
    cases lib.zlibDecode compressed with
    | error e => rfl
    | ok bytes =>
      by_cases hwidth : statusList.bits > 1
      · simp only [mapError_ok, ok_bind, if_pos hwidth, checkedSub_add_eq_ok hlt hwidth]
        cases (fromBytes bytes)[getMostSignificantBitIndex index statusList.bits + statusList.bits - 2]? with
        | none => rfl
        | some suspended =>
          cases (fromBytes bytes)[getMostSignificantBitIndex index statusList.bits + statusList.bits - 1]? <;> rfl
      · simp only [mapError_ok, ok_bind, if_neg hwidth]
        cases (fromBytes bytes)[getMostSignificantBitIndex index statusList.bits + statusList.bits - 1]? <;> rfl

/-- In every token that can be decoded and at every index, the decoder panics unless its numbers fit. -/
theorem extraction_survives_iff (lib : TokenLibrary) (statusList : TokenStatusListSubject) (index : Nat) :
    Survives (extractStateFromTokenChecked lib statusList index) ↔
      ∀ bytes, Decodes lib statusList.value bytes → FitsWord statusList.bits index := by
  constructor
  · rintro h bytes ⟨compressed, hdec, hinfl⟩
    cases hidx : getMostSignificantBitIndexChecked index statusList.bits with
    | ok p => exact (getMostSignificantBitIndexChecked_eq_ok_iff.1 hidx).1
    | error message =>
      refine absurd ?_ (h message)
      simp only [extractStateFromTokenChecked, hdec, hinfl, hidx, mapError_ok, ok_bind]
      rfl
  · intro h
    by_cases hfits : FitsWord statusList.bits index
    · rw [extractStateFromTokenChecked_eq hfits]
      exact .mapError _
    · refine (Survives.mapError _).bind fun bytes hbytes => absurd (h bytes ?_) hfits
      simpa [Decodes, ok_iffs] using hbytes

/-- Slots without any bits make the decoder divide by zero. -/
theorem zero_width_panics :
    extractStateFromTokenChecked .sample ⟨0, []⟩ 0 = .error (.panic "attempt to divide by zero") :=
  rfl

/-! ### The values of the slots -/

/-- The number that stands in some bits of the list. -/
def valueOf (bits : List Bool) (start width : Nat) : Nat :=
  ((bits.drop start).take width).foldl (fun n b => 2 * n + b.toNat) 0

/-- The states that have a number. -/
def specifiedState : Nat → Option RevocationState
  | 0 => some .valid
  | 1 => some .revoked
  | 2 => some (.suspended none)
  | _ => none

/-- Whatever state is found at the index, it is the one that the value of the slot stands for. -/
def FailsClosed (lib : TokenLibrary) (bits : Nat) (token : Str) (bytes : Bytes) (index : Nat) : Prop :=
  ∀ state, extractStateFromToken lib ⟨bits, token⟩ index = .ok state →
    specifiedState (valueOf (fromBytes bytes) (getMostSignificantBitIndex index bits) bits) = some state

lemma valueOf_add_one {l : List Bool} {start k : Nat} {b : Bool} (h : l[start + k]? = some b) :
    valueOf l start (k + 1) = 2 * valueOf l start k + b.toNat := by
  rw [valueOf, take_add_one, getElem?_drop, h, foldl_append]
  rfl

lemma specifiedState_eq_some_iff (n : Nat) (revoked suspended : Bool) :
    specifiedState (2 * (2 * n + suspended.toNat) + revoked.toNat) =
      some (stateOfBits revoked suspended) ↔ 2 * (2 * n + suspended.toNat) + revoked.toNat ≤ 2 := by
  rcases n with _ | n
  · cases revoked <;> cases suspended <;> decide
  · have hfour : 2 * (2 * (n + 1) + suspended.toNat) + revoked.toNat =
        4 * n + 2 * suspended.toNat + revoked.toNat + 4 := by omega
    rw [hfour]
    exact iff_of_false nofun (by omega)

/-- The decoder refuses what it does not know, exactly if it knows the value of the slot. -/
theorem failsClosed_iff (lib : TokenLibrary) (hbits : IsWidth bits) (hdecodes : Decodes lib token bytes)
    (hinside : index * bits < 8 * bytes.length) : FailsClosed lib bits token bytes index ↔
      valueOf (fromBytes bytes) (getMostSignificantBitIndex index bits) bits ≤ 2 := by
  obtain ⟨compressed, hdec, hinfl⟩ := hdecodes
  have hpos := one_le_of_isWidth hbits
  -- the slot lies in a byte of the list
  have hread : ∀ p, p < getMostSignificantBitIndex index bits + bits →
      ∃ b, (fromBytes bytes)[p]? = some b := by
    intro p hp
    have hadd := getMostSignificantBitIndex_add hbits index
    have hbyte : p / 8 < bytes.length := by omega
    rw [getElem?_fromBytes, getElem?_eq_getElem hbyte]
    exact ⟨_, rfl⟩
  obtain ⟨revoked, hrvd⟩ := hread (getMostSignificantBitIndex index bits + bits - 1) (by omega)
  -- the state that is found, and the value of the slot, by the last two bits
  obtain ⟨n, suspended, hsusp, hvalue⟩ : ∃ n suspended,
      readSuspended (fromBytes bytes) (getMostSignificantBitIndex index bits) bits index = .ok suspended ∧
      valueOf (fromBytes bytes) (getMostSignificantBitIndex index bits) bits =
        2 * (2 * n + suspended.toNat) + revoked.toNat := by
    obtain ⟨k, rfl⟩ := Nat.exists_eq_add_of_le' hpos
    rw [valueOf_add_one hrvd]
    rcases k with _ | k
    · exact ⟨0, false, rfl, rfl⟩
    · obtain ⟨suspended, hsusp⟩ := hread (getMostSignificantBitIndex index (k + 1 + 1) + k) (by omega)
      refine ⟨_, suspended, ?_, by rw [valueOf_add_one hsusp]⟩
      exact okOr_eq_ok.2 hsusp
  have hext : extractStateFromToken lib ⟨bits, token⟩ index = .ok (stateOfBits revoked suspended) := by
    simp only [extractStateFromToken, ok_iffs]
    exact ⟨compressed, hdec, bytes, hinfl, suspended, hsusp, revoked, hrvd, rfl⟩
  rw [hvalue, ← specifiedState_eq_some_iff, FailsClosed, hext, hvalue]
  constructor
  · exact fun h => h _ rfl
  · rintro h _ ⟨⟩
    exact h

/-- In slots of four bits the value 4 is taken for that of a valid credential. -/
theorem unknown_status_valid :
    IsWidth 4 ∧ Decodes .sample [Char.ofNat 4] [4] ∧
      valueOf (fromBytes [4]) (getMostSignificantBitIndex 0 4) 4 = 4 ∧
      extractStateFromToken .sample ⟨4, [Char.ofNat 4]⟩ 0 = .ok .valid ∧
      ¬FailsClosed .sample 4 [Char.ofNat 4] [4] 0 := by
  refine ⟨by decide, ⟨[4], rfl, rfl⟩, by decide, by decide, fun h => ?_⟩
  exact absurd (h .valid (by decide)) (by decide)

theorem suspended_entry_failsClosed : FailsClosed .sample 2 [Char.ofNat 2] [2] 0 :=
  (failsClosed_iff .sample (by decide) ⟨[2], rfl, rfl⟩ (by decide)).2 (by decide)

end OneCore.Revocation
