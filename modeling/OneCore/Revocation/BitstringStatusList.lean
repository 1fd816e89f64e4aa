/-
# Bitstring status lists: the encoding

A bitstring status list has one bit for each entry, which is set if the status of the entry is what the list
is for.  At least 131072 bits are allocated.  The decoder decompresses no more bytes than it needs for the
index it is asked for, so an index behind the last byte is found out when the stream ends.
-/
import OneCore.Lib.BitPacking
import OneCore.Revocation.Model

namespace OneCore.Revocation

open List BitPacking

/-! ### The code -/

inductive BitstringError where
  | base64Encoding (e : String)
  | base64Decoding (e : String)
  | compression (e : IoError)
  | decompression (e : IoError)
  | indexOutOfBounds (index : Nat)
  | invalidPrefix (message : Str)
deriving DecidableEq

def multibasePrefix : Char := 'u'

def gzipPrefix : Str := ['H', '4', 's']

/-- gzip and base64, which give back what was put in.  A reader of a compressed stream can be asked for any
number of bytes from its beginning.  All compressed streams begin in the same way. -/
structure BitstringLibrary where
  base64 : Base64Library
  gzipCompress : Bytes → Except IoError Bytes
  readExact : Bytes → Nat → Except IoError Bytes
  lossless : ∀ bytes, ∃ compressed, gzipCompress bytes = .ok compressed ∧
    ∀ n, readExact compressed n = if n ≤ bytes.length then .ok (bytes.take n) else .error .unexpectedEof
  header : ∀ {bytes compressed text}, gzipCompress bytes = .ok compressed →
    base64.encode compressed = .ok text → gzipPrefix <+: text

def gzipDecompress (lib : BitstringLibrary) (input : Bytes) (index : Nat) : Except IoError Bytes :=
  lib.readExact input (index / 8 + 1)

def stripMultibase : Str → Except BitstringError Str
  | [] => .error (.invalidPrefix "expected multibase prefix: 'u', input: ".toList)
  | c :: rest =>
    if c = multibasePrefix then .ok rest
    else .error (.invalidPrefix ("expected multibase prefix: 'u', input: ".toList ++ c :: rest))

/-- The stream ends too early, or it cannot be decompressed. -/
def BitstringError.ofDecompression (index : Nat) : IoError → BitstringError
  | .unexpectedEof => .indexOutOfBounds index
  | e => .decompression e

def extractBitstringIndex (lib : BitstringLibrary) (compressedList : Str) (index : Nat) :
    Except BitstringError Bool := do
  let compressedList ← stripMultibase compressedList
  ensure (gzipPrefix <+: compressedList)
    (.invalidPrefix ("expected gzip header: H4s, input: ".toList ++ compressedList))
  let compressed ← (lib.base64.decode compressedList).mapError .base64Decoding
  let bytes ← (gzipDecompress lib compressed index).mapError (.ofDecompression index)
  let bits := fromBytes bytes
  okOr bits[index]? (.indexOutOfBounds index)

def calculateBitstringSize (inputSize : Nat) : Nat :=
  max inputSize 131072

def setState (bits : List Bool) (entry : Nat × Bool) : Except (Fault BitstringError) (List Bool) :=
  if entry.2 then (BitPacking.set bits entry.1 true).mapError .panic else .ok bits

def generateBitstring (lib : BitstringLibrary) (input : List (Nat × Bool)) :
    Except (Fault BitstringError) Str := do
  let size := calculateBitstringSize input.length
  let bits ← input.foldlM setState (replicate size false)
  let compressed ← (lib.gzipCompress (toBytes bits)).mapError (.error ∘ .compression)
  let text ← (lib.base64.encode compressed).mapError (.error ∘ .base64Encoding)
  pure (multibasePrefix :: text)

def getRevocationEntryState (entryStatus : RevocationListEntryStatus) :
    RevocationListPurpose → Bool
  | .revocation => entryStatus = .revoked
  | .suspension => entryStatus = .suspended
  | .revocationAndSuspension =>
    match entryStatus with
    | .revoked | .suspended => true
    | .active => false

inductive GenerateBitstringError where
  | mapping (message : String)
  | bitstring (e : BitstringError)
deriving DecidableEq

/-- The entries of a list as they are encoded.  Every entry must have an index. -/
def purposeStates (purpose : RevocationListPurpose) (entries : List RevocationListEntry) :
    Except String (List (Nat × Bool)) :=
  entries.mapM fun entry => do
    let index ← okOr entry.index "revocation list entry index missing"
    pure (index, getRevocationEntryState entry.status purpose)

def generateBitstringFromEntries (lib : BitstringLibrary) (entries : List RevocationListEntry)
    (purpose : RevocationListPurpose) : Except (Fault GenerateBitstringError) Str := do
  let states ← (purposeStates purpose entries).mapError (.error ∘ .mapping)
  (generateBitstring lib states).mapError (Fault.map .bitstring)

/-! ### What is encoded -/

lemma foldlM_setState (input : List (Nat × Bool)) (bits : List Bool) :
    input.foldlM setState bits =
      (BitPacking.setAll bits ((input.filter Prod.snd).map Prod.fst)).mapError .panic := by
  induction input generalizing bits with
  | nil => rfl
  | cons entry input ih =>
    obtain ⟨index, state⟩ := entry
    rw [foldlM_cons]
    cases state with
    | false => exact ih bits
    | true =>
      rw [filter_cons_of_pos rfl, map_cons]
      unfold BitPacking.setAll
      rw [foldlM_cons]
      have hent : setState bits (index, true) = (BitPacking.set bits index true).mapError .panic := rfl
      rw [hent]
      cases BitPacking.set bits index true with
      | error e => rfl
      | ok bits' => exact ih bits'

section Codec

variable {lib : BitstringLibrary} {input : List (Nat × Bool)} {list : Str}

lemma generateBitstring_eq_ok_iff :
    generateBitstring lib input = .ok list ↔ ∃ bits compressed text,
      setAll (replicate (calculateBitstringSize input.length) false)
          ((input.filter Prod.snd).map Prod.fst) = .ok bits ∧
        lib.gzipCompress (toBytes bits) = .ok compressed ∧
        lib.base64.encode compressed = .ok text ∧ multibasePrefix :: text = list := by
  simp only [generateBitstring, foldlM_setState, ok_iffs, exists_and_left]

lemma exists_generateBitstring (lib : BitstringLibrary)
    (hidx : ∀ entry ∈ input, entry.1 < calculateBitstringSize input.length) :
    ∃ list, generateBitstring lib input = .ok list := by
  have hbits : ∃ bits, setAll (replicate (calculateBitstringSize input.length) false)
      ((input.filter Prod.snd).map Prod.fst) = .ok bits := by
    refine (exists_setAll_iff _ _).2 fun p hp => ?_
    obtain ⟨entry, hent, rfl⟩ := mem_map.1 hp
    rw [length_replicate]
    exact hidx entry (mem_of_mem_filter hent)
  obtain ⟨bits, hset⟩ := hbits
  obtain ⟨compressed, hcmp, -⟩ := lib.lossless (toBytes bits)
  obtain ⟨text, htext, -⟩ := lib.base64.lossless compressed
  exact ⟨_, generateBitstring_eq_ok_iff.2 ⟨bits, compressed, text, hset, hcmp, htext, rfl⟩⟩

lemma extractBitstringIndex_eq_of_bytes {bytes compressed : Bytes} {text : Str}
    (hcmp : lib.gzipCompress bytes = .ok compressed) (htext : lib.base64.encode compressed = .ok text)
    (i : Nat) :
    extractBitstringIndex lib (multibasePrefix :: text) i =
      okOr (fromBytes bytes)[i]? (.indexOutOfBounds i) := by
  obtain ⟨compressed', hcmp', hread⟩ := lib.lossless bytes
  obtain rfl := ok_unique hcmp hcmp'
  have hstrip : stripMultibase (multibasePrefix :: text) = .ok text := by
    rw [stripMultibase, if_pos rfl]
  have hhd : gzipPrefix <+: text := lib.header hcmp htext
  have hdec := Base64Library.decode_of_encode htext
  simp only [extractBitstringIndex, hstrip, Except.ok_bind, Except.ensure_of_pos hhd, hdec,
    Except.mapError_ok, gzipDecompress, hread]
  by_cases hlong : i / 8 + 1 ≤ bytes.length
  · rw [if_pos hlong]
    have htake := getElem?_fromBytes_take bytes (Nat.lt_succ_self (i / 8))
    exact congrArg (okOr · (BitstringError.indexOutOfBounds i)) htake
  · rw [if_neg hlong, getElem?_fromBytes, getElem?_eq_none (by omega)]
    rfl

/-- The decoder finds the states of the entries, then the zeros of the padding, then nothing. -/
lemma extractBitstringIndex_of_generateBitstring (h : generateBitstring lib input = .ok list) (i : Nat) :
    extractBitstringIndex lib list i =
      if i < padded (calculateBitstringSize input.length) then .ok (decide ((i, true) ∈ input))
      else .error (.indexOutOfBounds i) := by
  obtain ⟨bits, compressed, text, hset, hcmp, htext, rfl⟩ := generateBitstring_eq_ok_iff.1 h
  have hlen : bits.length = calculateBitstringSize input.length :=
    (length_of_setAll hset).trans length_replicate
  have hmem : i ∈ (input.filter Prod.snd).map Prod.fst ↔ (i, true) ∈ input := by
    simp
  have hbit : bits.getD i false = decide ((i, true) ∈ input) := by
    rw [Bool.eq_iff_iff, getD_of_setAll_replicate hset, hmem, decide_eq_true_iff]
  rw [extractBitstringIndex_eq_of_bytes hcmp htext, getElem?_fromBytes_toBytes, hlen, hbit]
  split
  · rfl
  · rfl

end Codec

/-! ### The codec -/

/-- The status of an entry is one that the list is for. -/
inductive MatchesPurpose : RevocationListEntryStatus → RevocationListPurpose → Prop
  | revocation : MatchesPurpose .revoked .revocation
  | suspension : MatchesPurpose .suspended .suspension
  | revokedOfBoth : MatchesPurpose .revoked .revocationAndSuspension
  | suspendedOfBoth : MatchesPurpose .suspended .revocationAndSuspension

lemma getRevocationEntryState_eq_true_iff {status : RevocationListEntryStatus}
    {purpose : RevocationListPurpose} :
    getRevocationEntryState status purpose = true ↔ MatchesPurpose status purpose := by
  constructor
  · intro h
    cases purpose with
    | revocation =>
      obtain rfl := of_decide_eq_true h
      exact .revocation
    | suspension =>
      obtain rfl := of_decide_eq_true h
      exact .suspension
    | revocationAndSuspension =>
      cases status with
      | active => cases h
      | revoked => exact .revokedOfBoth
      | suspended => exact .suspendedOfBoth
  · rintro (_ | _)
    · rfl
    · rfl
    · rfl
    · rfl

instance (status : RevocationListEntryStatus) (purpose : RevocationListPurpose) :
    Decidable (MatchesPurpose status purpose) :=
  decidable_of_iff _ getRevocationEntryState_eq_true_iff

section Entries

variable {entries : List RevocationListEntry}

lemma exists_purposeStates (purpose : RevocationListPurpose)
    (hidx : ∀ entry ∈ entries, ∃ i, entry.index = some i) :
    ∃ states, purposeStates purpose entries = .ok states ∧ states.length = entries.length ∧
      ∀ i state, (i, state) ∈ states ↔ ∃ entry ∈ entries, entry.index = some i ∧
        getRevocationEntryState entry.status purpose = state := by
  induction entries with
  | nil => exact ⟨[], rfl, rfl, fun _ _ => iff_of_false not_mem_nil (by simp)⟩
  | cons entry entries ih =>
    obtain ⟨index, hent⟩ := hidx entry mem_cons_self
    obtain ⟨states, hsts, hlen, hmem⟩ :=
      ih fun entry' hent' => hidx entry' (mem_cons_of_mem _ hent')
    refine ⟨(index, getRevocationEntryState entry.status purpose) :: states, ?_, ?_, fun i state => ?_⟩
    · unfold purposeStates at hsts ⊢
      rw [mapM_cons, hsts, hent]
      rfl
    · rw [length_cons, length_cons, hlen]
    · rw [mem_cons, hmem, exists_mem_cons_iff, hent, Prod.mk.injEq, Option.some_inj,
        @eq_comm _ i, @eq_comm _ state]

/-- For all entries with distinct indices below the size of the list, a bitstring is made in which exactly
the bits of the entries are set whose status is one the list is for.  Behind the last byte there is
nothing. -/
theorem extractBitstringIndex_of_entries (lib : BitstringLibrary) (purpose : RevocationListPurpose)
    (hindex : ∀ entry ∈ entries, ∃ i, entry.index = some i ∧ i < calculateBitstringSize entries.length)
    (hdistinct : (entries.map RevocationListEntry.index).Nodup) :
    ∃ list, generateBitstringFromEntries lib entries purpose = .ok list ∧
      (∀ entry ∈ entries, ∀ i, entry.index = some i →
        extractBitstringIndex lib list i = .ok (decide (MatchesPurpose entry.status purpose))) ∧
      (∀ i < calculateBitstringSize entries.length, some i ∉ entries.map RevocationListEntry.index →
        extractBitstringIndex lib list i = .ok false) ∧
      ∀ i, BitPacking.padded (calculateBitstringSize entries.length) ≤ i →
        extractBitstringIndex lib list i = .error (.indexOutOfBounds i) := by
  have hsome : ∀ entry ∈ entries, ∃ i, entry.index = some i := fun entry hent =>
    (hindex entry hent).imp fun i h => h.1
  obtain ⟨states, hsts, hlen, hmem⟩ := exists_purposeStates purpose hsome
  have hbelow : ∀ state ∈ states, state.1 < calculateBitstringSize states.length := by
    rintro ⟨i, state⟩ hst
    obtain ⟨entry, hent, hi, -⟩ := (hmem i state).1 hst
    obtain ⟨i', hi', hlt⟩ := hindex entry hent
    rw [hlen]
    exact mem_unique hi' hi ▸ hlt
  obtain ⟨list, hlist⟩ := exists_generateBitstring lib hbelow
  have hext := extractBitstringIndex_of_generateBitstring hlist
  rw [hlen] at hext
  have hpadded := le_padded (calculateBitstringSize entries.length)
  refine ⟨list, ?_, fun entry hent i hi => ?_, fun i hi hfree => ?_, fun i hi => ?_⟩
  · rw [generateBitstringFromEntries, hsts, Except.mapError_ok, Except.ok_bind, hlist]
    rfl
  · obtain ⟨i', hi', hlt⟩ := hindex entry hent
    obtain rfl := mem_unique hi hi'
    rw [hext, if_pos (by omega)]
    refine congrArg Except.ok (decide_eq_decide.2 ?_)
    rw [hmem, ← getRevocationEntryState_eq_true_iff]
    constructor
    · rintro ⟨entry', hent', hindex', hst⟩
      rwa [inj_on_of_nodup_map hdistinct hent hent' (hi.trans hindex'.symm)]
    · intro hst
      exact ⟨entry, hent, hi, hst⟩
  · have hnone : (i, true) ∉ states := by
      intro hst
      obtain ⟨entry, hent, hentryi, -⟩ := (hmem i true).1 hst
      exact hfree (hentryi ▸ mem_map_of_mem hent)
    rw [hext, if_pos (by omega), decide_eq_false hnone]
  · rw [hext, if_neg (by omega)]

end Entries

/-- A gzip that writes a header and does not compress. -/
def BitstringLibrary.sample : BitstringLibrary where
  base64 := .sample
  gzipCompress bytes := .ok (72 :: 52 :: 115 :: bytes)
  readExact compressed n :=
    if n ≤ (compressed.drop 3).length then .ok ((compressed.drop 3).take n) else .error .unexpectedEof
  lossless bytes := ⟨_, rfl, fun _ => rfl⟩
  header := by
    rintro bytes _ _ ⟨⟩ ⟨⟩
    exact ⟨bytes.map fun byte => Char.ofNat byte.toNat, rfl⟩

/-- In a list for revocations, the revoked one of two entries is found. -/
theorem revoked_entry_extracted :
    ∃ list, generateBitstringFromEntries .sample [⟨some 4, .revoked⟩, ⟨some 9, .suspended⟩] .revocation =
        .ok list ∧
      extractBitstringIndex .sample list 4 = .ok true ∧
      extractBitstringIndex .sample list 9 = .ok false ∧
      extractBitstringIndex .sample list 5 = .ok false ∧
      extractBitstringIndex .sample list 131072 = .error (.indexOutOfBounds 131072) := by
  have hidx : ∀ entry ∈ [(⟨some 4, .revoked⟩ : RevocationListEntry), ⟨some 9, .suspended⟩],
      ∃ i, entry.index = some i ∧ i < calculateBitstringSize 2 := by
    intro entry hent
    rcases mem_pair.1 hent with rfl | rfl
    · exact ⟨4, rfl, by decide⟩
    · exact ⟨9, rfl, by decide⟩
  obtain ⟨list, hlist, hents, hothers, hbehind⟩ :=
    extractBitstringIndex_of_entries .sample .revocation hidx (by decide)
  refine ⟨list, hlist, ?_, ?_, ?_, ?_⟩
  · exact hents ⟨some 4, .revoked⟩ (by simp) 4 rfl
  · exact hents ⟨some 9, .suspended⟩ (by simp) 9 rfl
  · exact hothers 5 (by decide) (by decide)
  · exact hbehind 131072 (by decide)

end OneCore.Revocation
