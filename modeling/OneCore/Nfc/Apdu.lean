/-
# APDU commands

A command has a header of four bytes, a payload and the length of the response that is expected.
The lengths take one byte each, or two in the extended form; a length of zero stands for the
largest one, and either field may be missing.

A command is read as it was written whenever it can be written at all, and so are the commands
that the engagement over NFC knows by name.
-/
import OneCore.Lib.BigEndian
import OneCore.Lib.Result
import OneCore.Model.Verification

namespace OneCore.Nfc

open List BigEndian

/-! ### Commands -/

structure Command where
  cla : UInt8
  ins : UInt8
  p1 : UInt8
  p2 : UInt8
  payload : Bytes
  /-- The expected length. -/
  le : ℕ

def toU16 (encoded : Bytes) (index : ℕ) : Except String ℕ :=
  match encoded.drop index with
  | hi :: lo :: _ => .ok (value hi lo)
  | _ => .error "Invalid APDU command - index out of bounds"

def orMax (max n : ℕ) : ℕ := if n = 0 then max else n

/-- The length of the payload, and where it starts. -/
def decodeLc (encoded : Bytes) (lc : UInt8) : Except String (ℕ × ℕ) := do
  if lc = 0 then return (← toU16 encoded 5, 7)
  return (lc.toNat, 5)

/-- The expected length, from the number of bytes it has. -/
def decodeLe (encoded : Bytes) : ℕ → Except String ℕ
  | 0 => .ok 0
  | 1 => do return orMax 0x100 (← okOr encoded.getLast? "Invalid APDU command").toNat
  | 2 | 3 => do return orMax 0x10000 (← toU16 encoded (encoded.length - 2))
  | length => .error ("Invalid LE length " ++ toString length)

/-- The payload and the expected length of a command with more than five bytes. -/
def decodeLong (encoded : Bytes) (lc : UInt8) : Except String (Bytes × ℕ) := do
  let (lc, lcEndsAt) ← decodeLc encoded lc
  if lc > 0 ∧ lcEndsAt + lc ≤ encoded.length then
    return ((encoded.drop lcEndsAt).take lc, ← decodeLe encoded (encoded.length - lcEndsAt - lc))
  return ([], ← decodeLe encoded (encoded.length - 4))

def Command.decode (encoded : Bytes) : Except String Command :=
  match encoded with
  | [cla, ins, p1, p2] => .ok ⟨cla, ins, p1, p2, [], 0⟩
  | [cla, ins, p1, p2, encLe] => .ok ⟨cla, ins, p1, p2, [], orMax 0x100 encLe.toNat⟩
  | cla :: ins :: p1 :: p2 :: lc :: _ => do
    let (payload, le) ← decodeLong encoded lc
    return ⟨cla, ins, p1, p2, payload, le⟩
  | _ => .error "Invalid APDU command"

def encodePayload (extendedLength : Bool) (payload : Bytes) : Except String Bytes := do
  if payload.isEmpty then return []
  ensure (payload.length ≤ 0xFFFF) "out of range integral type conversion attempted"
  let lc := payload.length
  return (if extendedLength then 0 :: bytes lc else [UInt8.ofNat lc]) ++ payload

def encodeLe (extendedLength hasPayload : Bool) (le : ℕ) : Except String Bytes := do
  if le = 0 then return []
  ensure (le ≤ 0x10000) ("Too large expected length: " ++ toString le)
  return if extendedLength then (if hasPayload then [] else [0]) ++ bytes le else [UInt8.ofNat le]

def Command.encode (c : Command) : Except String Bytes := do
  let extendedLength : Bool := c.payload.length > 0xFF || c.le > 0x100
  let payload ← encodePayload extendedLength c.payload
  let le ← encodeLe extendedLength (!c.payload.isEmpty) c.le
  return c.cla :: c.ins :: c.p1 :: c.p2 :: (payload ++ le)

/-- The lengths are within what the two fields can hold. -/
def Command.Encodable (c : Command) : Prop := c.payload.length ≤ 65535 ∧ c.le ≤ 65536

variable {payload pre : Bytes} {le n : ℕ} {cla ins p1 p2 : UInt8}

lemma encode_of_not_encodable {c : Command} (h : ¬c.Encodable) : ∃ e, c.encode = .error e := by
  cases he : c.encode with
  | error e => exact ⟨e, rfl⟩
  | ok b =>
    refine absurd ?_ h
    simp only [Command.encode, encodePayload, encodeLe, bind_eq_ok] at he
    obtain ⟨_, hp, _, hl, -⟩ := he
    constructor
    · split at hp
      · next hemp => simp [isEmpty_iff.1 hemp]
      · exact (bind_eq_ok.1 hp).elim fun _ h => ensure_eq_ok.1 h.1
    · split at hl
      · omega
      · exact (bind_eq_ok.1 hl).elim fun _ h => ensure_eq_ok.1 h.1

lemma toU16_append (pre : Bytes) (n : ℕ) (post : Bytes) :
    toU16 (pre ++ (bytes n ++ post)) pre.length = .ok (n % 65536) := by
  simp [toU16, bytes, value_ofNat]

lemma orMax_mod (h : 0 < n) (max : ℕ) (hm : 0 < max) (hn : n ≤ max) : orMax max (n % max) = n := by
  rw [orMax]
  rcases hn.eq_or_lt with rfl | hlt
  · simp
  · rw [Nat.mod_eq_of_lt hlt, if_neg h.ne']

/-- The expected length is read from what was written for it at the end of a command. -/
lemma decodeLe_encodeLe {extended hasPayload : Bool} {b : Bytes} (pre : Bytes)
    (h : encodeLe extended hasPayload le = .ok b) (hext : extended = false → le ≤ 0x100) :
    decodeLe (pre ++ b) b.length = .ok le := by
  unfold encodeLe at h
  split at h
  · next hzero =>
    cases h
    simp [decodeLe, hzero]
  · next hpos =>
    simp only [ok_iffs, exists_unit_iff] at h
    obtain ⟨hmax, rfl⟩ := h
    cases extended with
    | false =>
      have hle := hext rfl
      simp [decodeLe, okOr, bind, Except.bind, pure, Except.pure, orMax_mod (by omega) 256 _ hle]
    | true =>
      have hread : ∀ pre : Bytes, toU16 (pre ++ bytes le) pre.length = .ok (le % 65536) := fun pre =>
        by simpa using toU16_append pre le []
      have hmod := orMax_mod (Nat.pos_of_ne_zero hpos) 65536 (by decide) hmax
      cases hasPayload with
      | false =>
        have h := hread (pre ++ [0])
        simp [decodeLe, bytes, bind, Except.bind, pure, Except.pure] at h ⊢
        simp [h, hmod]
      | true =>
        have h := hread pre
        simp [decodeLe, bytes, bind, Except.bind, pure, Except.pure] at h ⊢
        simp [h, hmod]

lemma decode_payload {lc : UInt8} {more b : Bytes} (hne : payload ≠ [])
    (hlc : decodeLc (cla :: ins :: p1 :: p2 :: lc :: (more ++ (payload ++ b))) lc =
      .ok (payload.length, more.length + 5))
    (hle : decodeLe (cla :: ins :: p1 :: p2 :: lc :: more ++ payload ++ b) b.length = .ok le) :
    Command.decode (cla :: ins :: p1 :: p2 :: lc :: (more ++ (payload ++ b))) =
      .ok ⟨cla, ins, p1, p2, payload, le⟩ := by
  have hpos : 0 < payload.length := length_pos_iff.2 hne
  have hlen : (more ++ (payload ++ b)).length = more.length + payload.length + b.length := by
    simp [Nat.add_assoc]
  have hpart : ((more ++ (payload ++ b)).drop more.length).take payload.length = payload := by simp
  obtain ⟨y, ys, hy⟩ := exists_cons_of_ne_nil (show more ++ (payload ++ b) ≠ [] by simp [hne])
  simp only [cons_append, append_assoc] at hle
  rw [hy] at hlc hle hlen hpart ⊢
  have hsub : (cla :: ins :: p1 :: p2 :: lc :: y :: ys).length - (more.length + 5) - payload.length =
      b.length := by
    simp only [length_cons] at hlen ⊢
    omega
  have hlong : decodeLong (cla :: ins :: p1 :: p2 :: lc :: y :: ys) lc = .ok (payload, le) := by
    simp only [decodeLong, hlc, bind, Except.bind, hsub, hle, drop_succ_cons, hpart]
    rw [if_pos ⟨hpos, by simp only [length_cons] at hlen ⊢; omega⟩]
    rfl
  simp [Command.decode, hlong, bind, Except.bind, pure, Except.pure]

lemma encodeLe_eq_ok (extended hasPayload : Bool) (h : le ≤ 65536) :
    ∃ b, encodeLe extended hasPayload le = .ok b := by
  unfold encodeLe
  split
  · exact ⟨[], rfl⟩
  · exact ⟨_, bind_eq_ok.2 ⟨(), ensure_eq_ok.2 h, rfl⟩⟩

/-- Without a payload there are four, five or seven bytes. -/
lemma decode_of_encodeLe {extended : Bool} {b : Bytes} (h : encodeLe extended false le = .ok b)
    (hext : extended = decide (0x100 < le)) :
    Command.decode (cla :: ins :: p1 :: p2 :: b) = .ok ⟨cla, ins, p1, p2, [], le⟩ := by
  have hread := decodeLe_encodeLe [cla, ins, p1, p2] h (by simp [hext])
  unfold encodeLe at h
  split at h
  · next hzero =>
    cases h
    simp [Command.decode, hzero]
  · next hpos =>
    simp only [ok_iffs, exists_unit_iff] at h
    obtain ⟨hmax, rfl⟩ := h
    cases extended with
    | false =>
      have hle : le ≤ 256 := by simpa using hext
      simp [Command.decode, orMax_mod (Nat.pos_of_ne_zero hpos) 256 (by decide) hle]
    | true =>
      -- what is read for the length of a payload leaves no room for one
      simp only [if_true, bytes, Bool.false_eq_true, if_false] at hread ⊢
      have hno : ∀ v : ℕ, ¬(0 < v ∧ v = 0) := by omega
      simp only [Command.decode, decodeLong, decodeLc, toU16, drop_succ_cons]
      simp only [cons_append, nil_append, length_cons, length_nil] at hread ⊢
      simp [bind, Except.bind, pure, Except.pure, hread, hno]

lemma decode_encode {c : Command} (h : c.Encodable) :
    ∃ b, c.encode = .ok b ∧ Command.decode b = .ok c := by
  obtain ⟨cla, ins, p1, p2, payload, le⟩ := c
  obtain ⟨hp, hl⟩ : payload.length ≤ 65535 ∧ le ≤ 65536 := h
  set extended : Bool := payload.length > 0xFF || le > 0x100 with hext
  obtain ⟨b, hb⟩ := encodeLe_eq_ok extended (!payload.isEmpty) hl
  cases payload with
  | nil =>
    refine ⟨cla :: ins :: p1 :: p2 :: b, ?_, decode_of_encodeLe hb (by simp [hext])⟩
    simp only [Command.encode, ← hext, hb]
    rfl
  | cons x xs =>
    have hpos : (x :: xs).length ≠ 0 := by simp
    have henc : encodePayload extended (x :: xs) = .ok ((if extended then
        0 :: bytes (x :: xs).length else [UInt8.ofNat (x :: xs).length]) ++ (x :: xs)) :=
      bind_eq_ok.2 ⟨(), ensure_eq_ok.2 hp, rfl⟩
    refine ⟨_, by simp only [Command.encode, ← hext, henc, hb]; rfl, ?_⟩
    have hread := fun pre => decodeLe_encodeLe pre hb (by simp [hext])
    cases hx : extended with
    | false =>
      have hn : (x :: xs).length ≤ 255 := by
        rw [hx, eq_comm, Bool.or_eq_false_iff, decide_eq_false_iff_not] at hext
        omega
      refine @decode_payload (x :: xs) _ _ _ _ _ _ [] b (cons_ne_nil _ _) ?_ (hread _)
      have hmod : (x :: xs).length % 256 = (x :: xs).length := Nat.mod_eq_of_lt (by omega)
      have hne : UInt8.ofNat (x :: xs).length ≠ 0 := fun h =>
        hpos (hmod.symm.trans (by simpa using congrArg UInt8.toNat h))
      simp only [decodeLc, if_neg hne, UInt8.toNat_ofNat']
      rw [hmod]
      rfl
    | true =>
      refine @decode_payload (x :: xs) _ _ _ _ _ 0 (bytes _) b (cons_ne_nil _ _) ?_ (hread _)
      have h := toU16_append [cla, ins, p1, p2, 0] (x :: xs).length ((x :: xs) ++ b)
      rw [Nat.mod_eq_of_lt (by omega)] at h
      exact congrArg (fun r => r >>= _) h

/-! ### The commands that are known -/

/-- A command by its meaning. -/
inductive KnownCommand where
  | selectApplication (applicationId : Bytes)
  | selectFile (fileId : UInt8 × UInt8)
  | readBinary (offset length : ℕ)
  | other (command : Command)

def claDefault : UInt8 := 0x00
def insSelect : UInt8 := 0xa4
def insReadBinary : UInt8 := 0xb0
def paramsSelectApplication : UInt8 × UInt8 := (0x04, 0x00)
def paramsSelectFile : UInt8 × UInt8 := (0x00, 0x0c)

/-- The command for a known one; an offset has sixteen bits. -/
def KnownCommand.toCommand : KnownCommand → Except String Command
  | .selectApplication applicationId =>
    .ok ⟨claDefault, insSelect, paramsSelectApplication.1, paramsSelectApplication.2, applicationId, 0⟩
  | .selectFile fileId =>
    .ok ⟨claDefault, insSelect, paramsSelectFile.1, paramsSelectFile.2, [fileId.1, fileId.2], 0⟩
  | .readBinary offset length => do
    ensure (offset ≤ 0x7FFF) ("Offset out of bounds: " ++ toString offset)
    return ⟨claDefault, insReadBinary, UInt8.ofNat (offset / 256), UInt8.ofNat offset, [], length⟩
  | .other command => .ok command

def KnownCommand.tryFrom (command : Command) : Except String KnownCommand :=
  let params := (command.p1, command.p2)
  if command.cla = claDefault ∧ command.ins = insSelect ∧ params = paramsSelectApplication then do
    ensure (command.payload ≠ []) "Missing application ID"
    return .selectApplication command.payload
  else if command.cla = claDefault ∧ command.ins = insSelect ∧ params = paramsSelectFile then
    match command.payload with
    | [b, b'] => .ok (.selectFile (b, b'))
    | _ => .error "could not convert slice to array"
  else if command.cla = claDefault ∧ command.ins = insReadBinary then do
    let offset := value command.p1 command.p2
    ensure (offset ≤ 0x7FFF) ("Unsupported EF identifier: " ++ toString command.p1)
    ensure (command.le ≠ 0) "Missing length"
    return .readBinary offset command.le
  else .ok (.other command)

def KnownCommand.encode (known : KnownCommand) : Except String Bytes :=
  known.toCommand >>= Command.encode

def KnownCommand.decode (encoded : Bytes) : Except String KnownCommand :=
  Command.decode encoded >>= tryFrom

/-- A select has an id, a read has an offset and a length, and another command has none of the
patterns of these. -/
def KnownCommand.Proper : KnownCommand → Prop
  | .selectApplication applicationId => applicationId ≠ []
  | .selectFile _ => True
  | .readBinary offset length => offset ≤ 0x7FFF ∧ 1 ≤ length ∧ length ≤ 65536
  | .other command => command.cla = claDefault → command.ins ≠ insReadBinary ∧
      (command.ins = insSelect → (command.p1, command.p2) ≠ paramsSelectApplication ∧
        (command.p1, command.p2) ≠ paramsSelectFile)

/-- The length of an application id, and those of a command that is not known, may be too large. -/
def KnownCommand.TooLong : KnownCommand → Prop
  | .selectApplication applicationId => 65535 < applicationId.length
  | .selectFile _ | .readBinary .. => False
  | .other command => ¬command.Encodable

lemma exists_toCommand {known : KnownCommand} (h : known.Proper) :
    ∃ c, known.toCommand = .ok c ∧ KnownCommand.tryFrom c = .ok known ∧
      (c.Encodable ↔ ¬known.TooLong) := by
  cases known with
  | selectApplication applicationId =>
    refine ⟨_, rfl, bind_eq_ok.2 ⟨(), ensure_eq_ok.2 h, rfl⟩, ?_⟩
    simp [Command.Encodable, KnownCommand.TooLong]
  | selectFile => exact ⟨_, rfl, rfl, by simp [Command.Encodable, KnownCommand.TooLong]⟩
  | readBinary offset length =>
    obtain ⟨hoff, hpos, hmax⟩ := h
    have hval := value_ofNat offset
    rw [Nat.mod_eq_of_lt (by omega)] at hval
    have hne : insReadBinary ≠ insSelect := by decide
    have hlen : length ≠ 0 := by omega
    refine ⟨_, bind_eq_ok.2 ⟨(), ensure_eq_ok.2 hoff, rfl⟩, ?_, ?_⟩
    · simp [KnownCommand.tryFrom, hne, hval, ensure, hoff, hlen, bind, Except.bind, pure,
        Except.pure]
    · simp [Command.Encodable, KnownCommand.TooLong, hmax]
  | other command =>
    refine ⟨command, rfl, ?_, by simp [KnownCommand.TooLong]⟩
    unfold KnownCommand.tryFrom
    simp only [KnownCommand.Proper] at h
    grind

/-- A command is written exactly when its lengths fit, and then it is read as it was written; the
same holds for the known commands. -/
theorem command_round_trip :
    (∀ c : Command, c.Encodable → ∃ b, c.encode = .ok b ∧ Command.decode b = .ok c) ∧
    (∀ c : Command, ¬c.Encodable → ∃ e, c.encode = .error e) ∧
    ∀ known : KnownCommand, known.Proper →
      (¬known.TooLong → ∃ b, known.encode = .ok b ∧ KnownCommand.decode b = .ok known) ∧
      (known.TooLong → ∃ e, known.encode = .error e) := by
  refine ⟨fun c h => decode_encode h, fun c h => encode_of_not_encodable h, fun known h => ?_⟩
  obtain ⟨c, hc, hfrom, hiff⟩ := exists_toCommand h
  have henc : known.encode = c.encode := by
    rw [KnownCommand.encode, hc]
    rfl
  rw [henc, ← hiff, ← not_iff_comm.1 hiff.symm]
  refine ⟨fun h => ?_, encode_of_not_encodable⟩
  obtain ⟨b, hb, hdec⟩ := decode_encode h
  exact ⟨b, hb, by rw [KnownCommand.decode, hdec]; exact hfrom⟩

theorem selectApplication_read :
    (KnownCommand.selectApplication [0xD2, 0x76]).encode = .ok [0, 0xA4, 4, 0, 2, 0xD2, 0x76] ∧
    ∃ b, (KnownCommand.selectApplication [0xD2, 0x76]).encode = .ok b ∧
      KnownCommand.decode b = .ok (.selectApplication [0xD2, 0x76]) := by
  have hid : (KnownCommand.selectApplication [0xD2, 0x76]).Proper := cons_ne_nil _ _
  exact ⟨rfl, (command_round_trip.2.2 _ hid).1 (by simp [KnownCommand.TooLong])⟩

end OneCore.Nfc
