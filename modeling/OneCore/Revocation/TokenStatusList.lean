/-
# Token status lists: the encoding

A token status list is a string of bits in which each entry has a slot of 1, 2, 4 or 8 bits.  The slots are
packed into bytes from the least significant bit on, while the bits of a byte are counted from the most
significant one.  The last bit of a slot is set for a revoked entry, the bit before it for a suspended one.

The encoder allocates as many bits as there are entries times the width of a slot.  If the last byte is
not full, its slots lie at its end, which is not allocated: an entry there cannot be marked.  Apart from
that the decoder finds the state of each entry.
-/
import OneCore.Lib.BitPacking
import OneCore.Revocation.Model

namespace OneCore.Revocation

open List Option BitPacking

/-! ### The code -/

inductive TokenError where
  | base64Encoding (e : String)
  | base64Decoding (e : String)
  | compression (e : IoError)
  | decompression (e : IoError)
  | indexOutOfBounds (index : Nat)
  | suspensionRequiresAtLeastTwoBits
deriving DecidableEq

/-- zlib and base64, which give back what was put in. -/
structure TokenLibrary where
  base64 : Base64Library
  zlibEncode : Bytes → Except IoError Bytes
  zlibDecode : Bytes → Except IoError Bytes
  lossless : ∀ bytes, ∃ compressed, zlibEncode bytes = .ok compressed ∧ zlibDecode compressed = .ok bytes

structure TokenStatusListSubject where
  bits : Nat
  value : Str

def preferredEntrySize : Nat := 2

def getMostSignificantBitIndex (index bitSize : Nat) : Nat :=
  let wordsInByte := 8 / bitSize
  let wordSize := 8 / wordsInByte
  let byteNumber := (index * wordSize) / 8
  let byteStartIndex := 8 * byteNumber
  let smallestIndexInByte := byteNumber * wordsInByte
  let wordIndexWithinByte := index - smallestIndexInByte
  byteStartIndex + 8 - wordIndexWithinByte * wordSize - wordSize

def calculatePreferredTokenSize (inputSize bits : Nat) : Nat :=
  max (inputSize * bits) (131072 * bits)

def setEntry (bits : Nat) (bitvec : List Bool) :
    Nat × RevocationListEntryStatus → Except (Fault TokenError) (List Bool)
  | (_, .active) => .ok bitvec
  | (index, .revoked) =>
    (BitPacking.set bitvec (getMostSignificantBitIndex index bits + bits - 1) true).mapError .panic
  | (index, .suspended) =>
    if bits < preferredEntrySize then .error (.error .suspensionRequiresAtLeastTwoBits)
    else (BitPacking.set bitvec (getMostSignificantBitIndex index bits + bits - 2) true).mapError .panic

def generateToken (lib : TokenLibrary) (input : List (Nat × RevocationListEntryStatus))
    (bits preferredTokenSize : Nat) : Except (Fault TokenError) Str := do
  let bitvec ← input.foldlM (setEntry bits) (replicate preferredTokenSize false)
  let compressed ← (lib.zlibEncode (toBytes bitvec)).mapError (.error ∘ .compression)
  (lib.base64.encode compressed).mapError (.error ∘ .base64Encoding)

/-- The bytes of a token end too early, or they are not compressed. -/
def TokenError.ofDecompression (index : Nat) : IoError → TokenError
  | .unexpectedEof => .indexOutOfBounds index
  | e => .decompression e

/-- The state that the two bits of an entry stand for: revoked wins over suspended. -/
def stateOfBits : Bool → Bool → RevocationState
  | true, _ => .revoked
  | false, true => .suspended none
  | false, false => .valid

def readSuspended (bits : List Bool) (mostSignificantBitIndex entrySize index : Nat) :
    Except TokenError Bool :=
  if entrySize > 1 then
    okOr bits[mostSignificantBitIndex + entrySize - 2]? (.indexOutOfBounds index)
  else .ok false

def extractStateFromToken (lib : TokenLibrary) (statusList : TokenStatusListSubject) (index : Nat) :
    Except TokenError RevocationState := do
  let entrySize := statusList.bits
  let compressed ← (lib.base64.decode statusList.value).mapError .base64Decoding
  let bytes ← (lib.zlibDecode compressed).mapError (.ofDecompression index)
  let bits := fromBytes bytes
  let mostSignificantBitIndex := getMostSignificantBitIndex index entrySize
  let suspended ← readSuspended bits mostSignificantBitIndex entrySize index
  let revoked ← okOr bits[mostSignificantBitIndex + entrySize - 1]? (.indexOutOfBounds index)
  pure (stateOfBits revoked suspended)

/-- The entries of a list as they are encoded.  Every entry must have an index. -/
def indexStates (entries : List RevocationListEntry) :
    Except String (List (Nat × RevocationListEntryStatus)) :=
  entries.mapM fun entry => do
    let index ← okOr entry.index "revocation list entry index missing"
    pure (index, entry.status)

/-- Why no token is made from the entries: the message of a mapping error, or the error below. -/
inductive GenerateError where
  | mapping (message : String)
  | token (e : TokenError)
deriving DecidableEq

def generateTokenFromEntries (lib : TokenLibrary) (entries : List RevocationListEntry) :
    Except (Fault GenerateError) Str := do
  let states ← (indexStates entries).mapError (.error ∘ .mapping)
  let preferredTokenSize := calculatePreferredTokenSize states.length preferredEntrySize
  (generateToken lib states preferredEntrySize preferredTokenSize).mapError (Fault.map .token)

/-! ### Slots -/

def IsWidth (bits : Nat) : Prop :=
  bits = 1 ∨ bits = 2 ∨ bits = 4 ∨ bits = 8

instance (bits : Nat) : Decidable (IsWidth bits) :=
  inferInstanceAs (Decidable (_ ∨ _))

section Slots

variable {bits : Nat} (hbits : IsWidth bits) (i : Nat)
include hbits

lemma getMostSignificantBitIndex_add :
    getMostSignificantBitIndex i bits + bits + i * bits % 8 = 8 * (i * bits / 8) + 8 := by
  rcases hbits with rfl | rfl | rfl | rfl
  · simp only [getMostSignificantBitIndex]
    omega
  · simp only [getMostSignificantBitIndex]
    omega
  · simp only [getMostSignificantBitIndex]
    omega
  · simp only [getMostSignificantBitIndex]
    omega

lemma one_le_of_isWidth : 1 ≤ bits := by
  rcases hbits with rfl | rfl | rfl | rfl <;> omega

lemma index_unique {i j p : Nat}
    (hi : getMostSignificantBitIndex i bits ≤ p ∧ p < getMostSignificantBitIndex i bits + bits)
    (hj : getMostSignificantBitIndex j bits ≤ p ∧ p < getMostSignificantBitIndex j bits + bits) :
    i = j := by
  have haddi := getMostSignificantBitIndex_add hbits i
  have haddj := getMostSignificantBitIndex_add hbits j
  rcases hbits with rfl | rfl | rfl | rfl
  · omega
  · omega
  · omega
  · omega

end Slots

/-! ### What is encoded -/

def markedBit (bits : Nat) : Nat × RevocationListEntryStatus → Option Nat
  | (_, .active) => none
  | (index, .revoked) => some (getMostSignificantBitIndex index bits + bits - 1)
  | (index, .suspended) => some (getMostSignificantBitIndex index bits + bits - 2)

/-- Only in slots of two bits or more entries can be suspended. -/
def SuspensionFits (bits : Nat) (entries : List (Nat × RevocationListEntryStatus)) : Prop :=
  ∀ e ∈ entries, e.2 = .suspended → 2 ≤ bits

instance (bits : Nat) (entries : List (Nat × RevocationListEntryStatus)) :
    Decidable (SuspensionFits bits entries) :=
  inferInstanceAs (Decidable (∀ e ∈ entries, _))

section Encoding

variable {bits : Nat} {entries : List (Nat × RevocationListEntryStatus)}

lemma foldlM_setEntry (hsusp : SuspensionFits bits entries) (bitvec : List Bool) :
    entries.foldlM (setEntry bits) bitvec =
      (BitPacking.setAll bitvec (entries.filterMap (markedBit bits))).mapError .panic := by
  induction entries generalizing bitvec with
  | nil => rfl
  | cons e entries ih =>
    have hrest : SuspensionFits bits entries := fun e' he' => hsusp e' (mem_cons_of_mem _ he')
    -- An entry that sets the bit at `p` does so before the rest of the bits are set.
    have hset : ∀ p, (do
          let bitvec ← (BitPacking.set bitvec p true).mapError (Fault.panic : String → Fault TokenError)
          entries.foldlM (setEntry bits) bitvec) =
        (BitPacking.setAll bitvec (p :: entries.filterMap (markedBit bits))).mapError .panic := by
      intro p
      unfold BitPacking.setAll
      rw [foldlM_cons]
      cases BitPacking.set bitvec p true with
      | error e => rfl
      | ok bitvec' => exact ih hrest bitvec'
    rw [foldlM_cons]
    obtain ⟨index, status⟩ := e
    cases status with
    | active => exact ih hrest bitvec
    | revoked => exact hset _
    | suspended =>
      have hwidth : ¬bits < preferredEntrySize := Nat.not_lt.2 (hsusp _ mem_cons_self rfl)
      have hent : setEntry bits bitvec (index, .suspended) = (BitPacking.set bitvec
          (getMostSignificantBitIndex index bits + bits - 2) true).mapError .panic := if_neg hwidth
      rw [hent]
      exact hset _

variable {i p : Nat} {status : RevocationListEntryStatus}

lemma slot_of_markedBit (hbits : IsWidth bits) (hwidth : status = .suspended → 2 ≤ bits)
    (h : markedBit bits (i, status) = some p) :
    getMostSignificantBitIndex i bits ≤ p ∧ p < getMostSignificantBitIndex i bits + bits := by
  have hpos := one_le_of_isWidth hbits
  cases status with
  | active => cases h
  | revoked =>
    have hbit := some.inj h
    omega
  | suspended =>
    have hbit := some.inj h
    have hwidth := hwidth rfl
    omega

/-- No two entries mark the same bit. -/
lemma mem_marked_iff (hbits : IsWidth bits) (hsusp : SuspensionFits bits entries)
    (hwidth : status = .suspended → 2 ≤ bits) (h : markedBit bits (i, status) = some p) :
    p ∈ entries.filterMap (markedBit bits) ↔ (i, status) ∈ entries := by
  rw [mem_filterMap]
  constructor
  · rintro ⟨⟨j, status'⟩, hmem, hbit⟩
    have hslot := slot_of_markedBit hbits hwidth h
    have hslot' := slot_of_markedBit hbits (hsusp _ hmem) hbit
    obtain rfl := index_unique hbits hslot hslot'
    -- Inside one slot the two states have different bits.
    cases status <;> cases status' <;> simp only [markedBit, some_inj, reduceCtorEq] at h hbit
    · exact hmem
    · have hwidth := hsusp _ hmem rfl
      omega
    · have hwidth := hwidth rfl
      omega
    · exact hmem
  · intro hmem
    exact ⟨_, hmem, h⟩

end Encoding

/-! ### What is decoded -/

variable {lib : TokenLibrary}

lemma TokenLibrary.decode_of_encode {bytes compressed : Bytes}
    (h : lib.zlibEncode bytes = .ok compressed) : lib.zlibDecode compressed = .ok bytes := by
  obtain ⟨compressed', henc, hdec⟩ := lib.lossless bytes
  rwa [ok_unique h henc]

section Decoding

variable {bits size : Nat} {entries : List (Nat × RevocationListEntryStatus)}
  {token : Str} (hsusp : SuspensionFits bits entries)
include hsusp

lemma generateToken_eq_ok_iff :
    generateToken lib entries bits size = .ok token ↔ ∃ bitvec compressed,
      setAll (replicate size false) (entries.filterMap (markedBit bits)) = .ok bitvec ∧
        lib.zlibEncode (toBytes bitvec) = .ok compressed ∧
        lib.base64.encode compressed = .ok token := by
  simp [generateToken, foldlM_setEntry hsusp, ok_iffs]

lemma exists_generateToken_iff_setAll (lib : TokenLibrary) :
    (∃ token, generateToken lib entries bits size = .ok token) ↔
      ∃ bitvec, setAll (replicate size false) (entries.filterMap (markedBit bits)) = .ok bitvec := by
  constructor
  · rintro ⟨token, h⟩
    obtain ⟨bitvec, -, hbitvec, -⟩ := (generateToken_eq_ok_iff hsusp).1 h
    exact ⟨bitvec, hbitvec⟩
  · rintro ⟨bitvec, hbitvec⟩
    obtain ⟨compressed, hcmp, -⟩ := lib.lossless (toBytes bitvec)
    obtain ⟨token, htok, -⟩ := lib.base64.lossless compressed
    exact ⟨token, (generateToken_eq_ok_iff hsusp).2 ⟨bitvec, compressed, hbitvec, hcmp, htok⟩⟩

/-- A token is made exactly if each bit to be set is among those that are allocated. -/
lemma exists_generateToken_iff (lib : TokenLibrary) :
    (∃ token, generateToken lib entries bits size = .ok token) ↔
      ∀ p ∈ entries.filterMap (markedBit bits), p < size := by
  rw [exists_generateToken_iff_setAll hsusp, exists_setAll_iff, length_replicate]

lemma exists_generateToken_or_panic (lib : TokenLibrary) :
    (∃ token, generateToken lib entries bits size = .ok token) ∨
      ∃ message, generateToken lib entries bits size = .error (.panic message) := by
  cases hset : setAll (replicate size false) (entries.filterMap (markedBit bits)) with
  | error message =>
    refine .inr ⟨message, ?_⟩
    rw [generateToken, foldlM_setEntry hsusp, hset]
    rfl
  | ok bitvec => exact .inl ((exists_generateToken_iff_setAll hsusp lib).2 ⟨bitvec, hset⟩)

/-- The decoder finds the marks of the entry in every slot that begins among the allocated bits. -/
lemma extractStateFromToken_of_generateToken (hbits : IsWidth bits)
    (h : generateToken lib entries bits size = .ok token) {i : Nat} (hi : i * bits < size) :
    extractStateFromToken lib ⟨bits, token⟩ i =
      .ok (stateOfBits (decide ((i, .revoked) ∈ entries)) (decide ((i, .suspended) ∈ entries))) := by
  obtain ⟨bitvec, compressed, hset, hcmp, htok⟩ := (generateToken_eq_ok_iff hsusp).1 h
  have hlen : bitvec.length = size := (length_of_setAll hset).trans length_replicate
  have hslot := getMostSignificantBitIndex_add hbits i
  have hpadded : getMostSignificantBitIndex i bits + bits ≤ padded size := by
    unfold padded
    omega
  -- A bit of the slot is read as it was set.
  have hread : ∀ p, p < getMostSignificantBitIndex i bits + bits →
      (fromBytes (toBytes bitvec))[p]? =
        some (decide (p ∈ entries.filterMap (markedBit bits))) := by
    intro p hp
    have hin : p < padded bitvec.length := by
      rw [hlen]
      omega
    rw [getElem?_fromBytes_toBytes, if_pos hin, some_inj, Bool.eq_iff_iff,
      getD_of_setAll_replicate hset, decide_eq_true_iff]
  have hrvd := hread (getMostSignificantBitIndex i bits + bits - 1) (by omega)
  have hdec : lib.base64.decode token = .ok compressed := Base64Library.decode_of_encode htok
  have hinfl : lib.zlibDecode compressed = .ok (toBytes bitvec) :=
    TokenLibrary.decode_of_encode hcmp
  have hsusp' : readSuspended (fromBytes (toBytes bitvec))
      (getMostSignificantBitIndex i bits) bits i = .ok (decide ((i, .suspended) ∈ entries)) := by
    by_cases hwidth : 1 < bits
    · have hsuspe := hread (getMostSignificantBitIndex i bits + bits - 2) (by omega)
      simp only [mem_marked_iff (i := i) hbits hsusp (fun _ : .suspended = _ => hwidth) rfl] at hsuspe
      rw [readSuspended, if_pos hwidth, hsuspe]
      rfl
    · -- In a slot of one bit nothing can be suspended.
      have hnone : ¬(i, RevocationListEntryStatus.suspended) ∈ entries :=
        fun hmem => hwidth (hsusp _ hmem rfl)
      rw [readSuspended, if_neg hwidth, decide_eq_false hnone]
  simp only [mem_marked_iff (i := i) hbits hsusp (fun h : .revoked = _ => nomatch h) rfl] at hrvd
  simp only [extractStateFromToken, ok_iffs]
  exact ⟨compressed, hdec, _, hinfl, _, hsusp', _, hrvd, rfl⟩

end Decoding

/-! ### The codec -/

def tokenCapacity (inputSize bits : Nat) : Nat :=
  calculatePreferredTokenSize inputSize bits / bits

/-- There is a token for the entries, in which the decoder finds the state of every entry and, at every
other index the list has room for, that of a valid credential. -/
def DecodesEntries (lib : TokenLibrary) (bits : Nat)
    (entries : List (Nat × RevocationListEntryStatus)) : Prop :=
  ∃ token, generateToken lib entries bits (calculatePreferredTokenSize entries.length bits) = .ok token ∧
    (∀ e ∈ entries, extractStateFromToken lib ⟨bits, token⟩ e.1 = .ok e.2.state) ∧
    ∀ i < tokenCapacity entries.length bits, i ∉ entries.map Prod.fst →
      extractStateFromToken lib ⟨bits, token⟩ i = .ok .valid

/-- The slots of different indices have no bit in common, and no slot goes beyond its byte. -/
def SlotsSeparate (bits : Nat) : Prop :=
  (∀ i j p, (getMostSignificantBitIndex i bits ≤ p ∧ p < getMostSignificantBitIndex i bits + bits) →
    (getMostSignificantBitIndex j bits ≤ p ∧ p < getMostSignificantBitIndex j bits + bits) → i = j) ∧
  ∀ i, ∃ byte, 8 * byte ≤ getMostSignificantBitIndex i bits ∧
    getMostSignificantBitIndex i bits + bits ≤ 8 * byte + 8

/-- In a last byte that is not full, no entry is marked whose bit lies behind the end of the list: of the
place of the entry in this byte and the number of bits the list has there, the sum is large enough. -/
def MarksAllocated (bits capacity : Nat) (entries : List (Nat × RevocationListEntryStatus)) : Prop :=
  ∀ e ∈ entries, e.1 * bits / 8 = capacity * bits / 8 →
    (e.2 = .revoked → 8 ≤ e.1 * bits % 8 + capacity * bits % 8) ∧
      (e.2 = .suspended → 7 ≤ e.1 * bits % 8 + capacity * bits % 8)

instance (bits capacity : Nat) (entries : List (Nat × RevocationListEntryStatus)) :
    Decidable (MarksAllocated bits capacity entries) :=
  inferInstanceAs (Decidable (∀ e ∈ entries, _))

section Codec

variable {bits : Nat} {entries : List (Nat × RevocationListEntryStatus)}

lemma calculatePreferredTokenSize_eq (hbits : IsWidth bits) (n : Nat) :
    calculatePreferredTokenSize n bits = tokenCapacity n bits * bits := by
  have hpos := one_le_of_isWidth hbits
  have hsize : calculatePreferredTokenSize n bits = max n 131072 * bits :=
    Nat.mul_max_mul_right n 131072 bits
  rw [tokenCapacity, hsize, Nat.mul_div_cancel _ hpos]

lemma slotsSeparate (hbits : IsWidth bits) : SlotsSeparate bits := by
  refine ⟨fun i j p hi hj => index_unique hbits hi hj, fun i => ?_⟩
  have hadd := getMostSignificantBitIndex_add hbits i
  have hmod : i * bits % 8 + bits ≤ 8 := by
    rcases hbits with rfl | rfl | rfl | rfl <;> omega
  exact ⟨i * bits / 8, by omega, by omega⟩

lemma forall_markedBit_lt_iff (hbits : IsWidth bits) (hsusp : SuspensionFits bits entries)
    {capacity : Nat} (hidx : ∀ e ∈ entries, e.1 < capacity) :
    (∀ p ∈ entries.filterMap (markedBit bits), p < capacity * bits) ↔
      MarksAllocated bits capacity entries := by
  -- The slot of an entry begins in the list, so its byte is not behind the last one.
  have hbyte : ∀ e ∈ entries, e.1 * bits + bits ≤ capacity * bits := by
    intro e he
    have hle : (e.1 + 1) * bits ≤ capacity * bits := Nat.mul_le_mul_right bits (hidx e he)
    rwa [Nat.add_mul, Nat.one_mul] at hle
  constructor
  · intro h e he hlast
    have hslot := getMostSignificantBitIndex_add hbits e.1
    refine ⟨fun hst => ?_, fun hst => ?_⟩
    · have hbit := h _ (mem_filterMap.2 ⟨(e.1, .revoked), hst ▸ he, rfl⟩)
      omega
    · have hwidth := hsusp e he hst
      have hbit := h _ (mem_filterMap.2 ⟨(e.1, .suspended), hst ▸ he, rfl⟩)
      omega
  · intro h p hp
    obtain ⟨⟨index, status⟩, he, hbit⟩ := mem_filterMap.1 hp
    have hslot := getMostSignificantBitIndex_add hbits index
    have hle : index * bits + bits ≤ capacity * bits := hbyte _ he
    have hlast := h _ he
    cases status with
    | active => cases hbit
    | revoked =>
      cases hbit
      by_cases hpart : index * bits / 8 = capacity * bits / 8
      · have hroom : 8 ≤ index * bits % 8 + capacity * bits % 8 := (hlast hpart).1 rfl
        omega
      · omega
    | suspended =>
      cases hbit
      have hwidth : 2 ≤ bits := hsusp _ he rfl
      by_cases hpart : index * bits / 8 = capacity * bits / 8
      · have hroom : 7 ≤ index * bits % 8 + capacity * bits % 8 := (hlast hpart).2 rfl
        omega
      · omega

lemma stateOfBits_of_mem (hdst : (entries.map Prod.fst).Nodup) {e : Nat × RevocationListEntryStatus}
    (he : e ∈ entries) :
    stateOfBits (decide ((e.1, .revoked) ∈ entries)) (decide ((e.1, .suspended) ∈ entries)) =
      e.2.state := by
  have hst : ∀ status, (e.1, status) ∈ entries ↔ e.2 = status := by
    intro status
    refine ⟨fun hmem => ?_, fun heq => heq ▸ he⟩
    have hsame : (e.1, status) = e := inj_on_of_nodup_map hdst hmem he rfl
    rw [← hsame]
  simp only [hst]
  cases e.2 with
  | active => rfl
  | revoked => rfl
  | suspended => rfl

/-- For every width of the slots and all entries with distinct indices that the list has room for, a token
is made in which every state is found again, exactly if no entry is marked at a bit of the last byte that
is not allocated.  The slots never overlap. -/
theorem decodesEntries_iff (lib : TokenLibrary) (hbits : IsWidth bits)
    (hdistinct : (entries.map Prod.fst).Nodup)
    (hindex : ∀ e ∈ entries, e.1 < tokenCapacity entries.length bits)
    (hsuspended : SuspensionFits bits entries) :
    DecodesEntries lib bits entries ∧ SlotsSeparate bits ↔
      MarksAllocated bits (tokenCapacity entries.length bits) entries := by
  rw [and_iff_left (slotsSeparate hbits), ← forall_markedBit_lt_iff hbits hsuspended hindex,
    ← exists_generateToken_iff hsuspended lib, ← calculatePreferredTokenSize_eq hbits]
  constructor
  · rintro ⟨token, htok, -⟩
    exact ⟨token, htok⟩
  · rintro ⟨token, htok⟩
    have hst : ∀ i < tokenCapacity entries.length bits, extractStateFromToken lib ⟨bits, token⟩ i =
        .ok (stateOfBits (decide ((i, .revoked) ∈ entries)) (decide ((i, .suspended) ∈ entries))) := by
      intro i hi
      refine extractStateFromToken_of_generateToken hsuspended hbits htok ?_
      rw [calculatePreferredTokenSize_eq hbits]
      exact Nat.mul_lt_mul_of_pos_right hi (one_le_of_isWidth hbits)
    refine ⟨token, htok, fun e he => ?_, fun i hi hfree => ?_⟩
    · rw [hst e.1 (hindex e he), stateOfBits_of_mem hdistinct he]
    · have hnone : ∀ status, (i, status) ∉ entries :=
        fun status hmem => hfree (mem_map_of_mem hmem)
      rw [hst i hi, decide_eq_false (hnone _), decide_eq_false (hnone _)]
      rfl

end Codec

/-! ### A list with a last byte that is not full -/

/-- A zlib that does not compress. -/
def TokenLibrary.sample : TokenLibrary where
  base64 := .sample
  zlibEncode := .ok
  zlibDecode := .ok
  lossless bytes := ⟨bytes, rfl, rfl⟩

/-- Entries with the indices up to `n`, of which the last is revoked. -/
def lastRevoked (n : Nat) : List (Nat × RevocationListEntryStatus) :=
  (range n).map (fun i => (i, .active)) ++ [(n, .revoked)]

lemma length_lastRevoked (n : Nat) : (lastRevoked n).length = n + 1 := by
  simp [lastRevoked]

lemma map_fst_lastRevoked (n : Nat) : (lastRevoked n).map Prod.fst = range (n + 1) := by
  simp [lastRevoked, range_succ, Function.comp_def]

lemma filterMap_lastRevoked (bits n : Nat) : (lastRevoked n).filterMap (markedBit bits) =
    [getMostSignificantBitIndex n bits + bits - 1] := by
  have hact : ((range n).map fun i => (i, RevocationListEntryStatus.active)).filterMap
      (markedBit bits) = [] := by
    simp [filterMap_map, Function.comp_def, markedBit]
  rw [lastRevoked, filterMap_append, hact]
  rfl

lemma suspensionFits_lastRevoked (bits n : Nat) : SuspensionFits bits (lastRevoked n) := by
  intro e he hst
  rcases mem_append.1 he with he | he
  · obtain ⟨i, -, rfl⟩ := mem_map.1 he
    cases hst
  · obtain rfl := mem_singleton.1 he
    cases hst

lemma generateToken_lastRevoked {bits n : Nat} (size bit : Nat)
    (hbit : getMostSignificantBitIndex n bits + bits - 1 = bit) (hsize : size ≤ bit) :
    generateToken lib (lastRevoked n) bits size =
      .error (.panic s!"index out of bounds: {bit} >= {size}") := by
  have hall : setAll (replicate size false) [bit] =
      .error s!"index out of bounds: {bit} >= {size}" := by
    rw [setAll, foldlM_cons, BitPacking.set, length_replicate, if_neg (Nat.not_lt.2 hsize)]
    rfl
  rw [generateToken, foldlM_setEntry (suspensionFits_lastRevoked bits n), filterMap_lastRevoked, hbit, hall]
  rfl

/-- With 131073 entries in slots of two bits, the revocation of the last one ends in a panic. -/
theorem last_entry_not_revocable :
    IsWidth 2 ∧ ((lastRevoked 131072).map Prod.fst).Nodup ∧
      (∀ e ∈ lastRevoked 131072, e.1 < tokenCapacity (lastRevoked 131072).length 2) ∧
      SuspensionFits 2 (lastRevoked 131072) ∧
      generateToken .sample (lastRevoked 131072) 2
          (calculatePreferredTokenSize (lastRevoked 131072).length 2) =
        .error (.panic "index out of bounds: 262151 >= 262146") ∧
      ¬DecodesEntries .sample 2 (lastRevoked 131072) := by
  have hpanic : generateToken .sample (lastRevoked 131072) 2
      (calculatePreferredTokenSize (lastRevoked 131072).length 2) =
        .error (.panic "index out of bounds: 262151 >= 262146") := by
    rw [length_lastRevoked]
    exact generateToken_lastRevoked 262146 262151 (by decide) (by decide)
  refine ⟨by decide, map_fst_lastRevoked _ ▸ nodup_range, fun e he => ?_,
    suspensionFits_lastRevoked 2 _, hpanic, ?_⟩
  · have hmem : e.1 ∈ range (131072 + 1) := map_fst_lastRevoked _ ▸ mem_map_of_mem he
    rw [length_lastRevoked]
    exact mem_range.1 hmem
  · rintro ⟨token, htok, -⟩
    cases hpanic.symm.trans htok

/-- In a list of three entries all states are found again. -/
theorem small_list_decodes :
    DecodesEntries .sample 2 [(0, .revoked), (5, .suspended), (3, .active)] ∧ SlotsSeparate 2 :=
  (decodesEntries_iff .sample (by decide) (by decide) (by decide) (by decide)).2 (by decide)

end OneCore.Revocation
