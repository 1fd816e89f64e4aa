/-
# Hostile logs

Before the signature of an entry is decoded, its first byte, the multibase letter, is cut off.  A text
whose first character is none of one byte cannot be cut there, and the routine panics.  Whoever serves a
log chooses this text; the entry must have passed the checks up to there, of which none is about it.
-/
import OneCore.Did.WebVh

namespace OneCore.WebVh

open Except

variable {Key : Type} (env : Environment Key)

/-- The text without its first byte. -/
def cutFirstByte : Str → Except (Fault DidMethodError) Str
  | [] => .error (.panic "start byte index 1 is out of bounds")
  | c :: text =>
    if c.utf8Size = 1 then .ok text else .error (.panic "start byte index 1 is not a char boundary")

/-- The checks of a proof up to the decoding of its value, which is returned. -/
def Environment.signatureEncoded (params : DidLogParameters) (entry : DidLogEntry) :
    Except DidMethodError (Str × Key × Bytes) := do
  let versionId := String.ofList entry.versionId
  let proof ← okOr (entry.proof.find? fun proof => proof.cryptosuite = "eddsa-jcs-2022")
    (.resolutionError ("Found no integrity proof for log entry " ++ versionId ++
      " with cryptosuite 'eddsa-jcs-2022'."))
  let challenge ← okOr proof.challenge
    (.resolutionError ("Missing proof challenge for log entry " ++ versionId))
  ensure (madeBefore proof entry = false)
    (.resolutionError "Invalid proof: created time is before entry time.")
  ensure (challenge = entry.versionId) (.resolutionError ("Proof challenge mismatch, expected " ++
    versionId ++ ", got " ++ String.ofList challenge ++ "."))
  let keyHandle ← env.verifyVerificationMethod params proof
  let signatureEncoded ← okOr proof.proofValue
    (.resolutionError ("Missing proof_value for log entry " ++ versionId))
  let proofValue ← (env.proofToValue { proof with proofValue := none }).mapError
    (failed "Failed to serialize proof: ")
  let message ← env.canonicalizedHash proofValue
  let docHash ← env.canonicalizedHash entry.source
  pure (signatureEncoded, keyHandle, message ++ docHash)

/-- The checks of a proof that follow. -/
def Environment.verifySignature (entry : DidLogEntry) (keyHandle : Key) (message : Bytes) (text : Str) :
    Except DidMethodError Unit := do
  let signature ← (env.b58Decode text).mapError (failed "Failed to decode proof_value: ")
  (env.verify keyHandle message signature).mapError (failed
    ("Failed to verify integrity proof for log entry " ++ String.ofList entry.versionId ++ ": "))

def Environment.verifyProofChecked (params : DidLogParameters) (entry : DidLogEntry) :
    Except (Fault DidMethodError) Unit := do
  let (signatureEncoded, keyHandle, message) ← (env.signatureEncoded params entry).mapError .error
  let text ← cutFirstByte signatureEncoded
  (env.verifySignature entry keyHandle message text).mapError .error

/-- The loop over the entries.  The checks that follow the proof are those of the body of the loop, of which
the first two have passed. -/
def Environment.verifyEntryChecked (params : Params) (state : LogState)
    (logEntry : DidLogEntry × Str) : Except (Fault DidMethodError) LogState := do
  (env.verifyVersionId state.scidOrVersionId (state.index + 1) logEntry.2).mapError .error
  env.verifyProofChecked state.activeParameters logEntry.1
  (env.verifyEntry params state logEntry).mapError .error

def Environment.verifyDidLogChecked (params : Params) (log : List (DidLogEntry × Str)) :
    Except (Fault DidMethodError) Unit := do
  let (firstEntry, scid) ← Except.mapError .error do
    ensure (∀ limit ∈ params.maxDidLogEntryCheck, log.length ≤ limit) (.resolutionError
      ("Failed to verify did log: log has " ++ toString log.length ++
        " entries which is more than the max allowed length (" ++
        toString (params.maxDidLogEntryCheck.getD 0) ++ ")"))
    let (firstEntry, firstLineRaw) ← okOr log.head? (.resolutionError "Did log is empty")
    let scid ← okOr firstEntry.parameters.scid (.resolutionError "missing SCID")
    env.verifyScid scid firstLineRaw
    pure (firstEntry, scid)
  let _ ← log.foldlM (env.verifyEntryChecked params) ⟨0, firstEntry.parameters, scid, none⟩
  pure ()

/-! ### The texts that are cut -/

/-- The first character has one byte. -/
def Cuttable (text : Str) : Prop := ∃ c rest, text = c :: rest ∧ c.utf8Size = 1

/-- The value of the proof can be cut, if the checks of the entry get there. -/
def Environment.ProofCuttable (state : LogState) (logEntry : DidLogEntry × Str) : Prop :=
  env.verifyVersionId state.scidOrVersionId (state.index + 1) logEntry.2 = .ok () →
    ∀ signed, env.signatureEncoded state.activeParameters logEntry.1 = .ok signed → Cuttable signed.1

/-- The values of the proofs can be cut, of all entries that the loop gets to. -/
def Environment.ProofsCuttable (params : Params) : LogState → List (DidLogEntry × Str) → Prop
  | _, [] => True
  | state, logEntry :: log => env.ProofCuttable state logEntry ∧
      ∀ state', env.verifyEntry params state logEntry = .ok state' → ProofsCuttable params state' log

variable {env} {params : Params} {state : LogState} {logEntry : DidLogEntry × Str}
  {log : List (DidLogEntry × Str)}

lemma survives_bind_iff {ε α β : Type} {x : Except (Fault ε) α} {f : α → Except (Fault ε) β} :
    Survives (x >>= f) ↔ Survives x ∧ ∀ a, x = .ok a → Survives (f a) := by
  constructor
  · intro h
    refine ⟨?_, ?_⟩
    · rintro message rfl
      exact h message rfl
    · rintro a rfl
      exact h
  · exact fun h => h.1.bind h.2

lemma survives_cutFirstByte_iff {text : Str} : Survives (cutFirstByte text) ↔ Cuttable text := by
  cases text with
  | nil => simp [Survives, cutFirstByte, Cuttable]
  | cons c text => by_cases h : c.utf8Size = 1 <;> simp [Survives, cutFirstByte, Cuttable, h]

lemma survives_verifyEntryChecked_iff :
    Survives (env.verifyEntryChecked params state logEntry) ↔ env.ProofCuttable state logEntry := by
  simp only [Environment.verifyEntryChecked, Environment.verifyProofChecked, survives_bind_iff,
    Survives.mapError, true_and, mapError_eq_ok, survives_cutFirstByte_iff, implies_true, and_true]
  exact ⟨fun h hvid => h () hvid, fun h _ hvid => h hvid⟩

lemma verifyProofChecked_of_verifyProof {active : DidLogParameters} {entry : DidLogEntry}
    (hcut : ∀ signed, env.signatureEncoded active entry = .ok signed → Cuttable signed.1)
    (h : env.verifyProof active entry = .ok ()) : env.verifyProofChecked active entry = .ok () := by
  have heq : env.verifyProof active entry = env.signatureEncoded active entry >>= fun signed =>
      env.verifySignature entry signed.2.1 signed.2.2 (signed.1.drop 1) := by
    simp only [Environment.verifyProof, Environment.signatureEncoded, Environment.verifySignature,
      bind_assoc, pure_bind]
  rw [heq, bind_eq_ok] at h
  obtain ⟨signed, hsigned, hverify⟩ := h
  obtain ⟨c, rest, htext, hc⟩ := hcut signed hsigned
  rw [htext] at hverify
  simp only [Environment.verifyProofChecked, hsigned, htext, cutFirstByte, if_pos hc, mapError_ok, ok_bind]
  rw [mapError_eq_ok]
  exact hverify

lemma verifyEntryChecked_eq_ok_iff (hcut : env.ProofCuttable state logEntry) {state' : LogState} :
    env.verifyEntryChecked params state logEntry = .ok state' ↔
      env.verifyEntry params state logEntry = .ok state' := by
  simp only [Environment.verifyEntryChecked, bind_eq_ok, mapError_eq_ok, exists_unit_iff]
  refine ⟨fun h => h.2.2, fun h => ?_⟩
  have hent := h
  simp only [Environment.verifyEntry, bind_eq_ok, exists_unit_iff] at hent
  exact ⟨hent.1, verifyProofChecked_of_verifyProof (hcut hent.1) hent.2.1, h⟩

lemma survives_foldlM_iff :
    Survives (log.foldlM (env.verifyEntryChecked params) state) ↔ env.ProofsCuttable params state log := by
  induction log generalizing state with
  | nil => exact iff_of_true (.ok _) trivial
  | cons logEntry log ih =>
    rw [List.foldlM_cons, survives_bind_iff, survives_verifyEntryChecked_iff]
    simp only [ih]
    exact and_congr_right fun hcut => by simp only [verifyEntryChecked_eq_ok_iff hcut]

/-- The check of a log panics unless the values of the proofs can be cut, of all entries that it gets to. -/
theorem verifyDidLog_survives_iff (env : Environment Key) (params : Params)
    (log : List (DidLogEntry × Str)) :
    Survives (env.verifyDidLogChecked params log) ↔
      ((∀ limit ∈ params.maxDidLogEntryCheck, log.length ≤ limit) →
        ∀ first scid, log.head? = some first → first.1.parameters.scid = some scid →
          env.verifyScid scid first.2 = .ok () →
          env.ProofsCuttable params ⟨0, first.1.parameters, scid, none⟩ log) := by
  simp only [Environment.verifyDidLogChecked, survives_bind_iff, survives_foldlM_iff, Survives.mapError,
    true_and, ok_iffs, exists_unit_iff]
  constructor
  · intro h hlimit first scid hfirst hscid hvfy
    exact (h (first.1, scid) ⟨hlimit, first, hfirst, scid, hscid, hvfy, rfl⟩).1
  · rintro h _ ⟨hlimit, first, hfirst, scid, hscid, hvfy, rfl⟩
    exact ⟨h hlimit first scid hfirst hscid hvfy, fun _ _ => .ok _⟩

/-- The value of the proof of the first entry is empty. -/
theorem empty_proof_value_panics :
    (Environment.sample "").verifyDidLogChecked .sample
        [({ sampleEntry ['x'] "1-x".toList "" with
            proof := [⟨"eddsa-jcs-2022", "did:key:k#k", none, some "1-x".toList, some [], ""⟩] },
          "first".toList)] =
      .error (.panic "start byte index 1 is out of bounds") := by
  rfl

end OneCore.WebVh
