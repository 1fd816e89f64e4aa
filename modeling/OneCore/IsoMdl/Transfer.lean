/-
# Messages between the parties of an ISO mDL session

The verifier sends one request and the holder one response.  A message is cut into chunks that
fit into the MTU of the BLE connection, the last of which is marked; the receiver puts them
together, in whatever batches they arrive, until it has seen the mark.

What the verifier makes of the response is decided by two optional lists in it.  A holder that
rejects the request leaves out the documents, and the verifier takes only an empty list of
documents for a rejection.
-/
import OneCore.Lib.Chunks
import OneCore.Model.ProofSchema
import OneCore.Presentation.Formatters

namespace OneCore.IsoMdl

open List Mdoc
open Presentation (FormatType)

/-! ### Chunks -/

/-- A part of a message; the last one is marked. -/
inductive Chunk where
  | next (payload : Bytes)
  | last (payload : Bytes)

def Chunk.tryFrom : Bytes → Except String Chunk
  | 0 :: tail => .ok (.last tail)
  | 1 :: tail => .ok (.next tail)
  | _ => .error "invalid data format"

def Chunk.toBytes : Chunk → Bytes
  | .last v => 0 :: v
  | .next v => 1 :: v

@[simp]
lemma Chunk.tryFrom_toBytes (chunk : Chunk) : tryFrom chunk.toBytes = .ok chunk := by
  cases chunk <;> rfl

/-- A message as the byte strings that are sent one after the other. -/
def splitIntoChunks (sessionMessage : Bytes) (mtuSize : ℕ) :
    Except (Fault String) (List Bytes) := do
  ensure (mtuSize ≠ 0) (.panic "attempt to subtract with overflow")
  ensure (mtuSize ≠ 1) (.panic "chunk size must be non-zero")
  let chunks := sessionMessage.chunks (mtuSize - 1)
  let last ← okOr chunks.getLast? (.error "no chunks")
  return (chunks.dropLast.map Chunk.next ++ [Chunk.last last]).map Chunk.toBytes

/-! ### The reading loops -/

/-- The loop over one batch: the bytes so far, or the whole message once it has ended. -/
def readBatch : Bytes → List Bytes → Except String (Bytes ⊕ Bytes)
  | result, [] => .ok (.inl result)
  | result, msg :: data => do
    match ← Chunk.tryFrom msg with
    | .next payload => readBatch (result ++ payload) data
    | .last payload => .ok (.inr (result ++ payload))

/-- The loop over the batches that arrive; there is no result as long as it waits for more. -/
def readLoop {α : Type} (decode : Bytes → Except String α) :
    Bytes → List (List Bytes) → Option (Except String α)
  | _, [] => none
  | result, data :: batches =>
    match readBatch result data with
    | .error e => some (.error e)
    | .ok (.inl result) => readLoop decode result batches
    | .ok (.inr message) => some (decode message)

/-- The first message of a session, from the verifier to the holder. -/
structure SessionEstablishment where
  eReaderKey : Bytes
  data : Bytes

inductive StatusCode where
  | sessionEncryptionError
  | cborDecodingError
  | sessionTermination
deriving DecidableEq

structure SessionData where
  data : Option Bytes
  status : Option StatusCode

def readRequest (decode : Bytes → Except String SessionEstablishment)
    (writes : List (List Bytes)) : Option (Except String SessionEstablishment) :=
  readLoop decode [] writes

def readResponse (decode : Bytes → Except String SessionData)
    (notifications : List (List Bytes)) : Option (Except String SessionData) :=
  readLoop decode [] notifications

variable {α : Type} {decode : Bytes → Except String α} {result message : Bytes} {mtuSize : ℕ}
  {chunks data more : List Bytes} {batches : List (List Bytes)}

lemma readBatch_append : readBatch result (data ++ more) = (do
    match ← readBatch result data with
    | .inl result => readBatch result more
    | .inr message => .ok (.inr message)) := by
  induction data generalizing result with
  | nil => rfl
  | cons msg data ih =>
    cases h : Chunk.tryFrom msg with
    | error e => simp [readBatch, h, bind, Except.bind]
    | ok chunk =>
      cases chunk with
      | next payload => simpa [readBatch, h, bind, Except.bind] using ih
      | last payload => simp [readBatch, h, bind, Except.bind]

/-- The batches make no difference. -/
lemma readLoop_eq_flatten : readLoop decode result batches =
    readLoop decode result [batches.flatten] := by
  induction batches generalizing result with
  | nil => rfl
  | cons data batches ih =>
    simp only [readLoop, flatten_cons, readBatch_append]
    rcases h : readBatch result data with e | result' | message
    · rfl
    · simpa [readLoop, bind, Except.bind] using ih
    · rfl

/-- A part of a message that does not have the last chunk is read to its end. -/
lemma readBatch_next (payloads : List Bytes) :
    readBatch result (payloads.map fun payload => (Chunk.next payload).toBytes) =
      .ok (.inl (result ++ payloads.flatten)) := by
  induction payloads generalizing result with
  | nil => simp [readBatch]
  | cons payload payloads ih => simp [readBatch, bind, Except.bind, ih]

lemma splitIntoChunks_eq_ok_iff : splitIntoChunks message mtuSize = .ok chunks ↔
    2 ≤ mtuSize ∧ ∃ payloads last, message.chunks (mtuSize - 1) = payloads ++ [last] ∧
      chunks = (payloads.map fun payload => (Chunk.next payload).toBytes) ++
        [(Chunk.last last).toBytes] := by
  simp only [splitIntoChunks, ok_iffs, exists_unit_iff]
  constructor
  · rintro ⟨h0, h1, last, hlast, rfl⟩
    refine ⟨by omega, _, last, (dropLast_append_getLast? last hlast).symm, ?_⟩
    simp [Function.comp_def]
  · rintro ⟨h, payloads, last, hc, rfl⟩
    refine ⟨by omega, by omega, last, by simp [hc], ?_⟩
    simp [hc]

section

variable (h : splitIntoChunks message mtuSize = .ok chunks)

include h

lemma length_le_of_splitIntoChunks {chunk : Bytes} (hc : chunk ∈ chunks) :
    chunk.length ≤ mtuSize := by
  obtain ⟨hmtu, payloads, last, hcut, rfl⟩ := splitIntoChunks_eq_ok_iff.1 h
  have hle : ∀ c ∈ payloads ++ [last], c.length ≤ mtuSize - 1 := fun c hc =>
    length_le_of_mem_chunks (by omega) (hcut ▸ hc)
  simp only [mem_append, mem_map, mem_singleton] at hc
  obtain ⟨payload, hp, rfl⟩ | rfl := hc
  · have := hle payload (by simp [hp])
    simp only [Chunk.toBytes, length_cons]
    omega
  · have := hle last (by simp)
    simp only [Chunk.toBytes, length_cons]
    omega

/-- With the last chunk the message is complete, and nothing after it is looked at. -/
lemma readLoop_of_splitIntoChunks (hb : batches.flatten = chunks ++ more) :
    readLoop decode [] batches = some (decode message) := by
  obtain ⟨-, payloads, last, hcut, rfl⟩ := splitIntoChunks_eq_ok_iff.1 h
  have hm : (message.chunks (mtuSize - 1)).flatten = message := flatten_chunks
  replace hm : payloads.flatten ++ last = message := by simpa [hcut] using hm
  rw [readLoop_eq_flatten, hb]
  simp only [readLoop, append_assoc, readBatch_append, readBatch_next]
  simp [readBatch, bind, Except.bind, hm]

/-- Before the last chunk the loop waits. -/
lemma readLoop_of_lt_splitIntoChunks (hb : batches.flatten ++ more = chunks) (hne : more ≠ []) :
    readLoop decode [] batches = none := by
  obtain ⟨-, payloads, last, -, rfl⟩ := splitIntoChunks_eq_ok_iff.1 h
  obtain ⟨more, lastBytes, rfl⟩ := (eq_nil_or_concat more).resolve_left hne
  rw [concat_eq_append, ← append_assoc] at hb
  obtain ⟨read, _, -, hread, -⟩ := map_eq_append_iff.1 (append_inj_left' hb rfl).symm
  rw [readLoop_eq_flatten, ← hread]
  simp [readLoop, readBatch_next]

end

/-- A message of any length arrives over any connection.  Both reading loops stop at the last
chunk: neither before it, nor at anything that follows it in its batch. -/
theorem exists_splitIntoChunks_read (decodeRequest : Bytes → Except String SessionEstablishment)
    (decodeResponse : Bytes → Except String SessionData) (hne : message ≠ []) (hmtu : 2 ≤ mtuSize) :
    ∃ chunks, splitIntoChunks message mtuSize = .ok chunks ∧
      (∀ chunk ∈ chunks, chunk.length ≤ mtuSize) ∧
      (∀ batches more, batches.flatten = chunks ++ more →
        readRequest decodeRequest batches = some (decodeRequest message) ∧
        readResponse decodeResponse batches = some (decodeResponse message)) ∧
      ∀ batches more, batches.flatten ++ more = chunks → more ≠ [] →
        readRequest decodeRequest batches = none ∧ readResponse decodeResponse batches = none := by
  have hcut : message.chunks (mtuSize - 1) ≠ [] := chunks_ne_nil hne
  have hok := splitIntoChunks_eq_ok_iff.2 ⟨hmtu, _, _, (dropLast_append_getLast hcut).symm, rfl⟩
  refine ⟨_, hok, fun _ hc => length_le_of_splitIntoChunks hok hc, fun batches more hb => ?_,
    fun batches more hb hmore => ?_⟩
  · exact ⟨readLoop_of_splitIntoChunks hok hb, readLoop_of_splitIntoChunks hok hb⟩
  · exact ⟨readLoop_of_lt_splitIntoChunks hok hb hmore, readLoop_of_lt_splitIntoChunks hok hb hmore⟩

/-- A message of three bytes over an MTU of three. -/
theorem three_bytes_read : splitIntoChunks [7, 8, 9] 3 = .ok [[1, 7, 8], [0, 9]] ∧
    ∃ chunks, splitIntoChunks [7, 8, 9] 3 = .ok chunks ∧ ∀ batches more,
      batches.flatten = chunks ++ more →
        readResponse (fun b => .ok ⟨some b, none⟩) batches =
          some (.ok ⟨some [7, 8, 9], none⟩) := by
  refine ⟨rfl, ?_⟩
  obtain ⟨chunks, hok, -, hread, -⟩ := exists_splitIntoChunks_read
    (fun b => .ok ⟨b, b⟩) (fun b => .ok ⟨some b, none⟩)
    (show ([7, 8, 9] : Bytes) ≠ [] by decide) (show 2 ≤ 3 by decide)
  exact ⟨chunks, hok, fun batches more hb => (hread batches more hb).2⟩

/-! ### The response of the holder -/

/-- The answer to a device request.  Both lists may be left out of the message. -/
structure DeviceResponse where
  documents : Option (List Document)
  documentErrors : Option (List (IndexMap String ℤ))
  status : ℕ

/-- A credential that the holder presents, with the format of its schema. -/
structure CredentialToPresent where
  credentialToken : String
  credentialFormat : FormatType

/-- What the parties compute with: encodings, the session key, and their providers. -/
structure SessionEnvironment where
  decodeDeviceRequest : Bytes → Except String (List String)
  encodeDeviceResponse : DeviceResponse → Except String Bytes
  decodeDeviceResponse : Bytes → Except String DeviceResponse
  encodeSessionData : SessionData → Except String Bytes
  decodeSessionData : Bytes → Except String SessionData
  encodeVpToken : DeviceResponse → Except String String
  decodeVpToken : String → Except String DeviceResponse
  encrypt : Bytes → Except String Bytes
  decrypt : Bytes → Except String Bytes
  /-- A document with the signature of the device, from a token. -/
  buildDocument : String → Except String Document
  /-- The presentation formatters of the formats other than mdoc. -/
  formatOther : FormatType → List CredentialToPresent → Except String String
  fillProofClaimsAndCredentials : DeviceResponse → Except String Unit

structure HolderSession where
  mtu : ℕ
  deviceRequestBytes : Bytes

variable (env : SessionEnvironment)

def sendMdlResponse (deviceResponse : DeviceResponse) (session : Option HolderSession) :
    Except (Fault String) (List Bytes) := do
  let session ← okOr session (.error "interaction_session_data missing")
  let responseBytes ← (env.encodeDeviceResponse deviceResponse).mapError .error
  let encrypted ← (env.encrypt responseBytes).mapError .error
  let sessionDataBytes ← (env.encodeSessionData ⟨some encrypted, some .sessionTermination⟩).mapError
    .error
  splitIntoChunks sessionDataBytes session.mtu

def rejectResponse (docTypes : List String) : DeviceResponse where
  documents := none
  documentErrors := some [docTypes.foldl (fun errors docType => errors.insert docType 0) .empty]
  status := 0

def holderRejectProof (session : Option HolderSession) : Except (Fault String) (List Bytes) := do
  let kept ← okOr session (.error "interaction_session_data missing")
  let docTypes ← (env.decodeDeviceRequest kept.deviceRequestBytes).mapError .error
  sendMdlResponse env (rejectResponse docTypes) session

def formatMdoc (credentials : List CredentialToPresent) : Except String DeviceResponse := do
  let tokens ← credentials.mapM fun credential => do
    ensure (credential.credentialFormat = .mdoc) "Unsupported credential format"
    return credential.credentialToken
  let documents ← tokens.mapM env.buildDocument
  return ⟨some documents, none, 0⟩

/-- The formatter is chosen by the format of the first credential. -/
def formatPresentation (credentials : List CredentialToPresent) : FormatType → Except String String
  | .mdoc => do env.encodeVpToken (← formatMdoc env credentials)
  | format => env.formatOther format credentials

def holderSubmitProof (session : Option HolderSession) (credentials : List CredentialToPresent) :
    Except (Fault String) (List Bytes) := do
  let _ ← okOr session (.error "invalid interaction data")
  let first ← okOr credentials.head? (.error "no credentials to format")
  let vpToken ← (formatPresentation env credentials first.credentialFormat).mapError .error
  let deviceResponse ← (env.decodeVpToken vpToken).mapError .error
  sendMdlResponse env deviceResponse session

inductive HolderAction where
  | reject
  | submit (credentials : List CredentialToPresent)

def HolderAction.send (session : Option HolderSession) :
    HolderAction → Except (Fault String) (List Bytes)
  | .reject => holderRejectProof env session
  | .submit credentials => holderSubmitProof env session credentials

/-! ### The verdict of the verifier -/

def stateOfResponse (response : DeviceResponse) : ProofState :=
  let emptyDocuments := response.documents.any (·.isEmpty)
  let hasErrors := response.documentErrors.any (!·.isEmpty)
  if !emptyDocuments && hasErrors then .error
  else if emptyDocuments then
    if hasErrors then .rejected else .error
  else
    match env.fillProofClaimsAndCredentials response with
    | .ok () => .accepted
    | .error _ => .error

/-- What becomes of a request that was sent; there is no result while the response is awaited. -/
def processProof (notifications : List (List Bytes)) : Option (Except String ProofState) :=
  (readResponse env.decodeSessionData notifications).map fun read => do
    let data ← okOr (← read).data "data is missing"
    let decrypted ← env.decrypt data
    return stateOfResponse env (← env.decodeDeviceResponse decrypted)

def startClient (notifications : List (List Bytes)) : ProofState :=
  match processProof env notifications with
  | none => .requested
  | some (.ok state) => state
  | some (.error _) => .error

def OutcomeAgrees (action : HolderAction) (state : ProofState) : Prop :=
  (action = .reject → state = .rejected) ∧
  ((∃ credentials, action = .submit credentials) → state = .accepted ∨ state = .error) ∧
  state ≠ .requested

/-- Both parties have the same key and the encodings can be read back; a presentation in another
format does not read as a device response. -/
structure SessionEnvironment.Lawful : Prop where
  response : ∀ r b, env.encodeDeviceResponse r = .ok b → env.decodeDeviceResponse b = .ok r
  sessionData : ∀ d b, env.encodeSessionData d = .ok b → env.decodeSessionData b = .ok d
  vpToken : ∀ r t, env.encodeVpToken r = .ok t → env.decodeVpToken t = .ok r
  decrypt : ∀ b c, env.encrypt b = .ok c → env.decrypt c = .ok b
  other : ∀ f cs t r, env.formatOther f cs = .ok t → env.decodeVpToken t ≠ .ok r

variable {env} {session : Option HolderSession} {response : DeviceResponse} {action : HolderAction}
  {notifications : List (List Bytes)}

section

variable (hl : env.Lawful)

include hl

lemma startClient_of_sendMdlResponse (hs : sendMdlResponse env response session = .ok chunks)
    (hall : notifications.flatten = chunks) :
    startClient env notifications = stateOfResponse env response := by
  simp only [sendMdlResponse, ok_iffs] at hs
  obtain ⟨kept, -, b, hb, c, hc, d, hd, hcut⟩ := hs
  have hread : readLoop env.decodeSessionData [] notifications = some (env.decodeSessionData d) :=
    readLoop_of_splitIntoChunks hcut (hall.trans (append_nil _).symm)
  have hproc : processProof env notifications = some (.ok (stateOfResponse env response)) := by
    simp [processProof, readResponse, hread, hl.sessionData _ _ hd, hl.decrypt _ _ hc,
      hl.response _ _ hb, okOr, bind, Except.bind, pure, Except.pure]
  simp [startClient, hproc]

/-- A holder that submits sends documents and no errors. -/
lemma exists_of_holderSubmitProof {credentials : List CredentialToPresent}
    (hs : holderSubmitProof env session credentials = .ok chunks) :
    ∃ documents, sendMdlResponse env ⟨some documents, none, 0⟩ session = .ok chunks := by
  simp only [holderSubmitProof, ok_iffs] at hs
  obtain ⟨-, -, first, -, vpToken, hvp, sent, hdec, hsend⟩ := hs
  cases hf : first.credentialFormat with
  | mdoc =>
    simp only [formatPresentation, hf, formatMdoc, ok_iffs] at hvp
    obtain ⟨_, ⟨_, -, documents, -, rfl⟩, henc⟩ := hvp
    obtain rfl := ok_unique (hl.vpToken _ _ henc) hdec
    exact ⟨documents, hsend⟩
  | _ =>
    rw [hf] at hvp
    exact absurd hdec (hl.other _ _ _ _ hvp)

end

variable (env) in
lemma stateOfResponse_documents (documents : List Document) :
    stateOfResponse env ⟨some documents, none, 0⟩ = .accepted ∨
      stateOfResponse env ⟨some documents, none, 0⟩ = .error := by
  cases documents with
  | nil => simp [stateOfResponse]
  | cons document documents =>
    cases h : env.fillProofClaimsAndCredentials ⟨some (document :: documents), none, 0⟩ <;>
      simp [stateOfResponse, h]

/-- The outcomes agree exactly when the holder submits documents: a rejection ends in the state
of a failure. -/
theorem outcomeAgrees_iff (hl : env.Lawful) (hs : action.send env session = .ok chunks)
    (hall : notifications.flatten = chunks) :
    OutcomeAgrees action (startClient env notifications) ↔
      ∃ credentials, action = .submit credentials := by
  cases action with
  | reject =>
    simp only [HolderAction.send, holderRejectProof, bind_eq_ok] at hs
    obtain ⟨_, -, docTypes, -, hsend⟩ := hs
    simp [OutcomeAgrees, startClient_of_sendMdlResponse hl hsend hall, stateOfResponse,
      rejectResponse]
  | submit credentials =>
    obtain ⟨documents, hsend⟩ := exists_of_holderSubmitProof hl hs
    have h := stateOfResponse_documents env documents
    rw [← startClient_of_sendMdlResponse hl hsend hall] at h
    refine ⟨fun _ => ⟨credentials, rfl⟩, fun _ => ⟨nofun, fun _ => h, ?_⟩⟩
    rcases h with h | h <;> simp [h]

def bareResponse : DeviceResponse :=
  ⟨some [⟨"mdl", ⟨none, ⟨⟨none, none⟩, [], none, []⟩⟩, none⟩], none, 0⟩

/-- Two responses can be encoded: the bare one and the rejection of an empty request. -/
def encodeSample : DeviceResponse → Except String Bytes
  | ⟨some [⟨docType, ⟨none, ⟨⟨none, none⟩, [], none, []⟩⟩, none⟩], none, 0⟩ => do
    ensure (docType = "mdl") "not supported"
    return [1]
  | ⟨none, some [⟨[], _⟩], 0⟩ => .ok [0]
  | _ => .error "not supported"

def decodeSample (b : Bytes) : DeviceResponse :=
  if b = [1] then bareResponse else rejectResponse []

lemma decodeSample_of_encodeSample {b : Bytes} (h : encodeSample response = .ok b) :
    decodeSample b = response := by
  unfold encodeSample at h
  split at h
  · simp only [ok_iffs, exists_unit_iff] at h
    obtain ⟨rfl, rfl⟩ := h
    rfl
  · cases h
    rfl
  · cases h

def sampleSession : SessionEnvironment where
  decodeDeviceRequest _ := .ok []
  encodeDeviceResponse := encodeSample
  decodeDeviceResponse b := .ok (decodeSample b)
  encodeSessionData d := do
    ensure (d.status = some .sessionTermination) "not supported"
    return 0 :: (← okOr d.data "not supported")
  decodeSessionData b := .ok ⟨some b.tail, some .sessionTermination⟩
  encodeVpToken r := (encodeSample r).map fun b => if b = [1] then "bare" else "rejection"
  decodeVpToken t := .ok (if t = "bare" then bareResponse else rejectResponse [])
  encrypt := .ok
  decrypt := .ok
  buildDocument docType := .ok ⟨docType, ⟨none, ⟨⟨none, none⟩, [], none, []⟩⟩, none⟩
  formatOther _ _ := .error "not supported"
  fillProofClaimsAndCredentials _ := .ok ()

lemma sampleSession_lawful : sampleSession.Lawful where
  response _ _ h := congrArg Except.ok (decodeSample_of_encodeSample h)
  sessionData d b h := by
    obtain ⟨data, status⟩ := d
    simp only [sampleSession, ok_iffs, exists_unit_iff] at h
    obtain ⟨rfl, _, rfl, rfl⟩ := h
    rfl
  vpToken r t h := by
    obtain ⟨b, hb, rfl⟩ := Except.map_eq_ok.1 h
    rw [← decodeSample_of_encodeSample hb]
    by_cases hb : b = [1] <;> simp [sampleSession, decodeSample, hb]
  decrypt _ _ h := h.symm
  other _ _ _ _ h := nomatch h

/-- A rejected request ends in the state of a failure. -/
theorem rejection_ends_in_error :
    HolderAction.send sampleSession (some ⟨23, []⟩) .reject = .ok [[0, 0, 0]] ∧
    startClient sampleSession [[[0, 0, 0]]] = .error ∧
    ¬OutcomeAgrees .reject (startClient sampleSession [[[0, 0, 0]]]) := by
  have h : startClient sampleSession [[[0, 0, 0]]] = .error := rfl
  exact ⟨rfl, h, fun hag => by simpa [h] using hag.1 rfl⟩

theorem submission_accepted :
    startClient sampleSession [[[0, 0, 1]]] = .accepted ∧
    OutcomeAgrees (.submit [⟨"mdl", .mdoc⟩]) (startClient sampleSession [[[0, 0, 1]]]) := by
  have hs : HolderAction.send sampleSession (some ⟨23, []⟩) (.submit [⟨"mdl", .mdoc⟩]) =
      .ok [[0, 0, 1]] := rfl
  exact ⟨rfl, (outcomeAgrees_iff sampleSession_lawful hs rfl).2 ⟨_, rfl⟩⟩

end OneCore.IsoMdl
