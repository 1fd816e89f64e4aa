/-
# Bits in bytes

A record of flags is kept as a list of bits and sent as bytes, eight bits to a byte, the most significant
bit first; what is missing in the last byte is filled up with zeros.  A bit outside of the list cannot be
set, and reading there finds nothing.

The two facts that a user of the format needs: which bits are set after a list of positions was set, and
which bit is found at a position after the way to bytes and back.
-/
import OneCore.Lib.Result

namespace BitPacking

open List

/-- The bits of a byte, the most significant one first. -/
def bitsOfByte (byte : UInt8) : List Bool :=
  (range 8).map fun k => byte.toNat.testBit (7 - k)

def fromBytes (bytes : List UInt8) : List Bool :=
  bytes.flatMap bitsOfByte

/-- The byte of the first eight bits; a missing bit is zero. -/
def byteOfBits (bits : List Bool) : UInt8 :=
  UInt8.ofNat ((range 8).foldl (fun n k => 2 * n + (bits.getD k false).toNat) 0)

/-- The number of bits in as many bytes as are needed for `n` bits. -/
def padded (n : ℕ) : ℕ :=
  8 * ((n + 7) / 8)

def toBytes (bits : List Bool) : List UInt8 :=
  (range ((bits.length + 7) / 8)).map fun k => byteOfBits (bits.drop (8 * k))

/-- Set a bit of the list.  The error is the message of the panic. -/
def set (bits : List Bool) (i : ℕ) (value : Bool) : Except String (List Bool) :=
  let length := bits.length
  if i < length then .ok (bits.set i value)
  else .error s!"index out of bounds: {i} >= {length}"

def setAll (bits : List Bool) (positions : List ℕ) : Except String (List Bool) :=
  positions.foldlM (fun bits i => set bits i true) bits

/-! ### Setting bits -/

variable {bits bits' : List Bool} {positions : List ℕ} {i : ℕ}

lemma set_eq_ok_iff {value : Bool} :
    set bits i value = .ok bits' ↔ i < bits.length ∧ bits.set i value = bits' := by
  unfold set
  by_cases h : i < bits.length
  · simp [h]
  · simp [h]

lemma setAll_cons_eq_ok_iff {p : ℕ} : setAll bits (p :: positions) = .ok bits' ↔
    p < bits.length ∧ setAll (bits.set p true) positions = .ok bits' := by
  unfold setAll
  rw [foldlM_cons, bind_eq_ok]
  constructor
  · rintro ⟨bits₁, hset, hrest⟩
    obtain ⟨hp, rfl⟩ := set_eq_ok_iff.1 hset
    exact ⟨hp, hrest⟩
  · rintro ⟨hp, hrest⟩
    exact ⟨bits.set p true, set_eq_ok_iff.2 ⟨hp, rfl⟩, hrest⟩

lemma exists_setAll_iff (bits : List Bool) (positions : List ℕ) :
    (∃ bits', setAll bits positions = .ok bits') ↔ ∀ p ∈ positions, p < bits.length := by
  induction positions generalizing bits with
  | nil => exact iff_of_true ⟨bits, rfl⟩ nofun
  | cons p positions ih =>
    have hlen : (bits.set p true).length = bits.length := length_set
    rw [forall_mem_cons, ← hlen, ← ih]
    simp [setAll_cons_eq_ok_iff]

lemma length_of_setAll (h : setAll bits positions = .ok bits') : bits'.length = bits.length := by
  induction positions generalizing bits with
  | nil => exact congrArg length (pure_eq_ok.1 h).symm
  | cons p positions ih =>
    obtain ⟨-, hrest⟩ := setAll_cons_eq_ok_iff.1 h
    exact (ih hrest).trans length_set

/-- A bit is set afterwards if it was set before or stands among the positions. -/
lemma getD_of_setAll (h : setAll bits positions = .ok bits') :
    bits'.getD i false = true ↔ bits.getD i false = true ∨ i ∈ positions := by
  induction positions generalizing bits with
  | nil =>
    obtain rfl := pure_eq_ok.1 h
    simp
  | cons p positions ih =>
    obtain ⟨hp, hrest⟩ := setAll_cons_eq_ok_iff.1 h
    rw [ih hrest, mem_cons]
    by_cases heq : p = i
    · subst heq
      simp [hp]
    · simp [heq, Ne.symm heq]

lemma getD_of_setAll_replicate {n : ℕ} (h : setAll (replicate n false) positions = .ok bits') :
    bits'.getD i false = true ↔ i ∈ positions := by
  rw [getD_of_setAll h]
  simp

/-! ### Bytes -/

lemma length_bitsOfByte (byte : UInt8) : (bitsOfByte byte).length = 8 := by
  simp [bitsOfByte]

lemma getElem?_bitsOfByte {byte : UInt8} (h : i < 8) :
    (bitsOfByte byte)[i]? = some (byte.toNat.testBit (7 - i)) := by
  simp [bitsOfByte, getElem?_range h]

/-- The bit at a position is found in the byte with an eighth of it as number. -/
lemma getElem?_fromBytes (bytes : List UInt8) (i : ℕ) :
    (fromBytes bytes)[i]? = bytes[i / 8]?.map fun byte => byte.toNat.testBit (7 - i % 8) := by
  induction bytes generalizing i with
  | nil => simp [fromBytes]
  | cons byte bytes ih =>
    have hcons : fromBytes (byte :: bytes) = bitsOfByte byte ++ fromBytes bytes := rfl
    have hlen := length_bitsOfByte byte
    rw [hcons]
    by_cases h : i < 8
    · have hdiv : i / 8 = 0 := by omega
      have hmod : i % 8 = i := by omega
      rw [getElem?_append_left (by omega), getElem?_bitsOfByte h, hdiv, hmod]
      rfl
    · have hdiv : i / 8 = (i - 8) / 8 + 1 := by omega
      have hmod : (i - 8) % 8 = i % 8 := by omega
      rw [getElem?_append_right (by omega), hlen, ih, hdiv, getElem?_cons_succ, hmod]

lemma testBit_of_bools : ∀ (b₀ b₁ b₂ b₃ b₄ b₅ b₆ b₇ : Bool) (k : Fin 8),
    (UInt8.ofNat ((range 8).foldl
      (fun n k => 2 * n + ([b₀, b₁, b₂, b₃, b₄, b₅, b₆, b₇].getD k false).toNat) 0)).toNat.testBit
        (7 - k.val) = [b₀, b₁, b₂, b₃, b₄, b₅, b₆, b₇].getD k.val false := by
  decide +kernel

lemma testBit_byteOfBits (h : i < 8) :
    (byteOfBits bits).toNat.testBit (7 - i) = bits.getD i false := by
  have hget : ((range 8).map fun k => bits.getD k false).getD i false = bits.getD i false := by
    simp [getD_eq_getElem?_getD, getElem?_range h]
  rw [← hget]
  exact testBit_of_bools _ _ _ _ _ _ _ _ ⟨i, h⟩

/-- On the way to bytes and back zeros are added at the end, and nothing else is changed. -/
lemma getElem?_fromBytes_toBytes (bits : List Bool) (i : ℕ) :
    (fromBytes (toBytes bits))[i]? =
      if i < padded bits.length then some (bits.getD i false) else none := by
  rw [getElem?_fromBytes, toBytes, getElem?_map]
  by_cases h : i < padded bits.length
  · have hbyte : i / 8 < (bits.length + 7) / 8 := by
      unfold padded at h
      omega
    have hpos : 8 * (i / 8) + i % 8 = i := Nat.div_add_mod i 8
    rw [if_pos h, getElem?_range hbyte, Option.map_some, Option.map_some,
      testBit_byteOfBits (Nat.mod_lt i (by omega))]
    rw [getD_eq_getElem?_getD, getElem?_drop, hpos, getD_eq_getElem?_getD]
  · have hbyte : (range ((bits.length + 7) / 8)).length ≤ i / 8 := by
      rw [length_range]
      unfold padded at h
      omega
    rw [if_neg h, getElem?_eq_none hbyte]
    rfl

lemma le_padded (n : ℕ) : n ≤ padded n := by
  unfold padded
  omega

lemma getElem?_fromBytes_take (bytes : List UInt8) {n : ℕ} (h : i / 8 < n) :
    (fromBytes (bytes.take n))[i]? = (fromBytes bytes)[i]? := by
  rw [getElem?_fromBytes, getElem?_fromBytes, getElem?_take_of_lt h]

end BitPacking
