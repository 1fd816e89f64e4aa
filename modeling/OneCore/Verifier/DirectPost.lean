/-
# The life of a proof request on the verifier's side

A proof request is answered by posting a submission.  Any number of submissions may be in
flight at once, over the endpoints of three protocol versions and the proximity callback.  Each
reads the stored proof, checks the submission against what it read, and then writes: an accepted
submission in a transaction that looks at the stored state again under a lock, a failed one by a
single update that does not look.

The system state is the stored proof together with the phase of each submission; its steps are
the steps of the submissions in any interleaving.  The verdict is final in a run exactly when no
failed submission writes while the stored proof is accepted.
-/
import OneCore.Lib.Transition
import OneCore.Model.ProofSchema

namespace OneCore.Verifier

/-! ### The stored proof -/

abbrev BlobId := Nat

/-- The columns of a stored proof that a submission changes, with its claims. -/
structure Proof (Claim : Type) where
  state : ProofState
  claims : List Claim
  proofBlobId : Option BlobId

/-- An update of a stored proof; a field that is `none` is left as it is. -/
structure UpdateProofRequest where
  state : Option ProofState
  proofBlobId : Option (Option BlobId)

inductive ServiceError where
  | invalidProofState (state : ProofState)

variable {Submission Claim : Type} (proof : Proof Claim)

def Proof.updateProof (request : UpdateProofRequest) : Proof Claim :=
  { proof with
    state := request.state.getD proof.state
    proofBlobId := request.proofBlobId.getD proof.proofBlobId }

/-- The repository's insertion of the proved claims; rows that are there stay. -/
def Proof.setProofClaims (claims : List Claim) : Proof Claim :=
  { proof with claims := proof.claims ++ claims }

def throwIfProofStateNotIn (validStates : List ProofState) : Except ServiceError Unit :=
  ensure (proof.state ∈ validStates) (.invalidProofState proof.state)

/-- The transaction that stores an accepted submission, run on the locked row. -/
def persistAcceptedProof (claims : List Claim) (proofBlobId : BlobId) :
    Except ServiceError (Proof Claim) := do
  -- double-check that the proof is in the expected state
  throwIfProofStateNotIn proof [.pending, .requested]
  return (proof.setProofClaims claims).updateProof ⟨some .accepted, some (some proofBlobId)⟩

/-- The update that stores a failed submission.  The proximity callback has no blob if it fails
before the submission is read. -/
def markProofAsFailed (proofBlobId : Option BlobId) : Proof Claim :=
  proof.updateProof ⟨some .error, proofBlobId.map some⟩

/-! ### Submissions -/

inductive Endpoint where
  | draft20
  | draft25
  | final1_0
  | proximity

/-- The check of a submission after the check of the proof's state. -/
abbrev Process (Submission Claim : Type) :=
  Endpoint → Submission → Proof Claim → Except String (List Claim)

def validateSubmission (process : Process Submission Claim) (endpoint : Endpoint)
    (submission : Submission) (proof : Proof Claim) : Except String (List Claim) := do
  (throwIfProofStateNotIn proof [.pending, .requested]).mapError fun _ => "invalid proof state"
  process endpoint submission proof

inductive Phase (Submission Claim : Type) where
  /-- Nothing has come in yet. -/
  | idle
  /-- The proof has been read. -/
  | loaded (endpoint : Endpoint) (submission : Submission) (proof : Proof Claim)
  /-- The blob of the submission is stored. -/
  | validating (endpoint : Endpoint) (submission : Submission) (proof : Proof Claim)
      (proofBlobId : BlobId)
  /-- The submission is valid; its claims are about to be stored. -/
  | accepting (claims : List Claim) (proofBlobId : BlobId)
  /-- The submission has failed; the failure is about to be stored. -/
  | failing (proofBlobId : Option BlobId)
  /-- The answer has been sent. -/
  | done

structure System (Submission Claim : Type) where
  proof : Proof Claim
  requests : Nat → Phase Submission Claim

/-- What a submission does in one step. -/
inductive Action where
  | receive
  | abandon
  | parseFailed
  | createBlob
  | validateOk
  | validateErr
  | persist
  | persistFailed
  | markFailed
  | markFailedLost

structure Event where
  request : Nat
  action : Action

namespace System

/-- The submission `r` moves to another phase. -/
def setPhase (s : System Submission Claim) (r : Nat) (phase : Phase Submission Claim) :
    System Submission Claim :=
  { s with requests := Function.update s.requests r phase }

lemma setPhase_requests_self (s : System Submission Claim) (r : Nat)
    (phase : Phase Submission Claim) : (s.setPhase r phase).requests r = phase := by
  simp [setPhase]

end System

inductive Step (process : Process Submission Claim) :
    System Submission Claim → Event → System Submission Claim → Prop
  /-- A submission comes in and the proof is read, without a lock. -/
  | receive {s : System Submission Claim} {r : Nat} (endpoint : Endpoint)
      (submission : Submission) (h : s.requests r = .idle) :
      Step process s ⟨r, .receive⟩ (s.setPhase r (.loaded endpoint submission s.proof))
  /-- A submission ends without a write: a check before the blob is stored, or a storage
  error. -/
  | abandon {s : System Submission Claim} {r : Nat} (h : s.requests r ≠ .idle) :
      Step process s ⟨r, .abandon⟩ (s.setPhase r .done)
  /-- The interaction data of the proximity callback does not parse. -/
  | parseFailed {s : System Submission Claim} {r : Nat} {submission : Submission}
      {proof : Proof Claim} (h : s.requests r = .loaded .proximity submission proof) :
      Step process s ⟨r, .parseFailed⟩ (s.setPhase r (.failing none))
  | createBlob {s : System Submission Claim} {r : Nat} {endpoint : Endpoint}
      {submission : Submission} {proof : Proof Claim} (proofBlobId : BlobId)
      (h : s.requests r = .loaded endpoint submission proof) :
      Step process s ⟨r, .createBlob⟩
        (s.setPhase r (.validating endpoint submission proof proofBlobId))
  | validateOk {s : System Submission Claim} {r : Nat} {endpoint : Endpoint}
      {submission : Submission} {proof : Proof Claim} {proofBlobId : BlobId} {claims : List Claim}
      (h : s.requests r = .validating endpoint submission proof proofBlobId)
      (hok : validateSubmission process endpoint submission proof = .ok claims) :
      Step process s ⟨r, .validateOk⟩ (s.setPhase r (.accepting claims proofBlobId))
  | validateErr {s : System Submission Claim} {r : Nat} {endpoint : Endpoint}
      {submission : Submission} {proof : Proof Claim} {proofBlobId : BlobId} {e : String}
      (h : s.requests r = .validating endpoint submission proof proofBlobId)
      (herr : validateSubmission process endpoint submission proof = .error e) :
      Step process s ⟨r, .validateErr⟩ (s.setPhase r (.failing (some proofBlobId)))
  /-- The transaction commits. -/
  | persist {s : System Submission Claim} {r : Nat} {claims : List Claim} {proofBlobId : BlobId}
      {proof : Proof Claim} (h : s.requests r = .accepting claims proofBlobId)
      (hok : persistAcceptedProof s.proof claims proofBlobId = .ok proof) :
      Step process s ⟨r, .persist⟩ ({ s with proof := proof }.setPhase r .done)
  /-- The transaction is rolled back: the state was not the expected one, or the storage
  failed. -/
  | persistFailed {s : System Submission Claim} {r : Nat} {claims : List Claim}
      {proofBlobId : BlobId} (h : s.requests r = .accepting claims proofBlobId) :
      Step process s ⟨r, .persistFailed⟩ (s.setPhase r .done)
  | markFailed {s : System Submission Claim} {r : Nat} {proofBlobId : Option BlobId}
      (h : s.requests r = .failing proofBlobId) :
      Step process s ⟨r, .markFailed⟩
        ({ s with proof := markProofAsFailed s.proof proofBlobId }.setPhase r .done)
  /-- The failure could not be stored; only a warning is logged. -/
  | markFailedLost {s : System Submission Claim} {r : Nat} {proofBlobId : Option BlobId}
      (h : s.requests r = .failing proofBlobId) :
      Step process s ⟨r, .markFailedLost⟩ (s.setPhase r .done)

/-! ### What a step can do to the stored proof -/

section Steps

variable {process : Process Submission Claim} {s s' : System Submission Claim} {e : Event}

variable (h : Step process s e s')

include h

/-- A step leaves the stored proof alone, or commits an acceptance of a proof that was pending or
requested, or stores a failure. -/
lemma Step.proof_cases :
    (s'.proof = s.proof ∧ e.action ≠ .persist ∧ e.action ≠ .markFailed) ∨
      (e.action = .persist ∧ (s.proof.state = .pending ∨ s.proof.state = .requested) ∧
        s'.proof.state = .accepted) ∨
      (e.action = .markFailed ∧ s'.proof.state = .error) := by
  cases h with
  | persist h hok =>
    obtain ⟨_, hst, ⟨⟩⟩ := bind_eq_ok.1 hok
    exact Or.inr (Or.inl ⟨rfl, by simpa using ensure_eq_ok.1 hst, rfl⟩)
  | markFailed h => exact Or.inr (Or.inr ⟨rfl, rfl⟩)
  | _ => exact Or.inl ⟨rfl, by simp, by simp⟩

lemma Step.proof_eq_of_accepted (hs : s.proof.state = .accepted)
    (he : e.action ≠ .markFailed) : s'.proof = s.proof := by
  rcases h.proof_cases with ⟨heq, -⟩ | ⟨-, hst, -⟩ | ⟨hmark, -⟩
  · exact heq
  · simp [hs] at hst
  · exact absurd hmark he

lemma Step.error_of_error (hs : s.proof.state = .error) : s'.proof.state = .error := by
  rcases h.proof_cases with ⟨heq, -⟩ | ⟨-, hst, -⟩ | ⟨-, herr⟩
  · rw [heq, hs]
  · simp [hs] at hst
  · exact herr

lemma Step.closed_of_closed (hs : s.proof.state ∉ [.pending, .requested]) :
    s'.proof.state ∉ [.pending, .requested] := by
  rcases h.proof_cases with ⟨heq, -⟩ | ⟨-, hst, -⟩ | ⟨-, herr⟩
  · rwa [heq]
  · exact absurd (by simpa using hst) hs
  · simp [herr]

end Steps

/-! ### Whole runs -/

section Runs

variable {process : Process Submission Claim} {s s' : System Submission Claim}
  {tr : List (Transition (System Submission Claim) Event)}

/-- In every stretch of the run, an accepted proof at its beginning is the same proof at its end,
and after an error the proof is not accepted. -/
def VerdictFinal (process : Process Submission Claim)
    (tr : List (Transition (System Submission Claim) Event)) : Prop :=
  ∀ tr₁ tr₂ tr₃, tr = tr₁ ++ tr₂ ++ tr₃ → ∀ m m', Run (Step process) m tr₂ m' →
    (m.proof.state = .accepted → m'.proof = m.proof) ∧
      (m.proof.state = .error → m'.proof.state ≠ .accepted)

lemma error_of_run (h : Run (Step process) s tr s') (hs : s.proof.state = .error) :
    s'.proof.state = .error :=
  h.preserves (P := fun s => s.proof.state = .error) (fun _ _ hstep => hstep.error_of_error) hs

lemma proof_eq_of_run (h : Run (Step process) s tr s')
    (htr : ∀ t ∈ tr, t.label.action = .markFailed → t.src.proof.state ≠ .accepted)
    (hs : s.proof.state = .accepted) : s'.proof = s.proof := by
  refine h.preserves (P := fun x => x.proof = s.proof) (fun t ht hstep hsrc => ?_) rfl
  have hacc : t.src.proof.state = .accepted := by rw [hsrc, hs]
  rw [← hsrc]
  exact hstep.proof_eq_of_accepted hacc fun hmark => htr t ht hmark hacc

/-- A proof is accepted at most once: a run commits at most one submission. -/
theorem pairwise_persist (h : Run (Step process) s tr s') :
    tr.Pairwise fun t u => t.label.action = .persist → u.label.action ≠ .persist := by
  refine List.pairwise_of_forall_before fun pre u hpre t ht hfst hagain => ?_
  obtain ⟨hrun, hu⟩ := h.of_append_singleton hpre
  obtain ⟨_, _, -, -, ht, hbtw⟩ := hrun.split_of_mem ht
  -- once a submission is committed the proof is closed, and a closed proof commits nothing
  have hclosed : u.src.proof.state ∉ [.pending, .requested] := by
    refine hbtw.preserves (P := fun s => s.proof.state ∉ [.pending, .requested])
      (fun _ _ hstep => hstep.closed_of_closed) ?_
    rcases ht.proof_cases with ⟨-, hne, -⟩ | ⟨-, -, hacc⟩ | ⟨hmark, -⟩
    · exact absurd hfst hne
    · simp [hacc]
    · simp [hfst] at hmark
  rcases hu.proof_cases with ⟨-, hne, -⟩ | ⟨-, hst, -⟩ | ⟨hmark, -⟩
  · exact hne hagain
  · exact hclosed (by simpa using hst)
  · simp [hagain] at hmark

/-- Whatever is posted after the acceptance of a proof, unless it is dropped, ends in a failure
that is stored over the acceptance. -/
theorem exists_run_overwriting
    {m : System Submission Claim} (hacc : m.proof.state = .accepted) {r : Nat}
    (hidle : m.requests r = .idle) (endpoint : Endpoint) (submission : Submission)
    (proofBlobId : BlobId) :
    ∃ tr s', Run (Step process) m tr s' ∧
      s'.proof = markProofAsFailed m.proof (some proofBlobId) := by
  have he : validateSubmission process endpoint submission m.proof =
      .error "invalid proof state" := by
    simp [validateSubmission, throwIfProofStateNotIn, ensure, hacc, bind, Except.bind,
      Except.mapError]
  let s₁ := m.setPhase r (.loaded endpoint submission m.proof)
  let s₂ := s₁.setPhase r (.validating endpoint submission m.proof proofBlobId)
  let s₃ := s₂.setPhase r (.failing (some proofBlobId))
  have h₁ : Step process m ⟨r, .receive⟩ s₁ := .receive endpoint submission hidle
  have h₂ : Step process s₁ ⟨r, .createBlob⟩ s₂ :=
    .createBlob proofBlobId (m.setPhase_requests_self r _)
  have h₃ : Step process s₂ ⟨r, .validateErr⟩ s₃ :=
    .validateErr (s₁.setPhase_requests_self r _) he
  have h₄ : Step process s₃ ⟨r, .markFailed⟩ _ := .markFailed (s₂.setPhase_requests_self r _)
  exact ⟨_, _, .cons h₁ (.cons h₂ (.cons h₃ (.cons h₄ (.refl _)))), rfl⟩

/-- In every run, whatever the submissions and their interleaving, the verdict is final if and
only if no failure is stored while the stored proof is accepted. -/
theorem verdict_final_iff (process : Process Submission Claim) {s s' : System Submission Claim}
    {tr : List (Transition (System Submission Claim) Event)} (h : Run (Step process) s tr s') :
    VerdictFinal process tr ↔
      ∀ t ∈ tr, t.label.action = .markFailed → t.src.proof.state ≠ .accepted := by
  constructor
  · intro hfinal t ht hmark hacc
    obtain ⟨tr₁, tr₂, rfl⟩ := List.append_of_mem ht
    have hstep := h.step_of_mem ht
    have hrun : Run (Step process) t.src [t] t.dst := .cons hstep (.refl _)
    have heq := (hfinal tr₁ [t] tr₂ (by simp) _ _ hrun).1 hacc
    rcases hstep.proof_cases with ⟨-, -, hne⟩ | ⟨hpers, -⟩ | ⟨-, herr⟩
    · exact hne hmark
    · simp [hmark] at hpers
    · rw [heq, hacc] at herr
      exact absurd herr (by decide)
  · rintro htr tr₁ tr₂ tr₃ rfl m m' hrun
    refine ⟨fun hacc => proof_eq_of_run hrun (fun t ht => htr t (by simp [ht])) hacc, ?_⟩
    intro herr
    rw [error_of_run hrun herr]
    decide

end Runs

section Sample

def acceptAll : Process Unit String := fun _ _ _ => .ok ["claim"]

def sampleSystem : System Unit String := ⟨⟨.pending, [], none⟩, fun _ => .idle⟩

lemma exists_sample_run :
    ∃ tr s', Run (Step acceptAll) sampleSystem tr s' ∧
      s'.proof = ⟨.accepted, ["claim"], some 1⟩ ∧ s'.requests 1 = .idle ∧
      ∀ t ∈ tr, t.label.action ≠ .markFailed := by
  have hrun : Run (Step acceptAll) sampleSystem _ _ :=
    .cons (.receive (r := 0) .final1_0 () rfl) <| .cons (.createBlob (r := 0) 1 rfl) <|
      .cons (.validateOk (r := 0) rfl rfl) <| .cons (.persist (r := 0) rfl rfl) <| .refl _
  exact ⟨_, _, hrun, rfl, rfl, by simp⟩

/-- The first submission is accepted; the same submission posted again turns the proof into an
error and replaces its blob. -/
theorem replay_overwrites_accepted :
    ∃ tr₁ tr₂ m s', Run (Step acceptAll) sampleSystem tr₁ m ∧
      m.proof = ⟨.accepted, ["claim"], some 1⟩ ∧ Run (Step acceptAll) m tr₂ s' ∧
      s'.proof = ⟨.error, ["claim"], some 2⟩ ∧ ¬VerdictFinal acceptAll (tr₁ ++ tr₂) := by
  obtain ⟨tr₁, m, hrun, hm, hidle, -⟩ := exists_sample_run
  have hacc : m.proof.state = .accepted := by rw [hm]
  obtain ⟨tr₂, s', hreplay, hs'⟩ :=
    exists_run_overwriting hacc hidle .final1_0 () 2
  have herr : s'.proof = ⟨.error, ["claim"], some 2⟩ := by
    rw [hs', hm]
    rfl
  refine ⟨tr₁, tr₂, m, s', hrun, hm, hreplay, herr, fun hfinal => ?_⟩
  have heq := (hfinal tr₁ tr₂ [] (List.append_nil _).symm m s' hreplay).1 hacc
  rw [herr, hm] at heq
  exact absurd (congrArg Proof.state heq) (by decide)

/-- The run commits its submission once. -/
theorem persist_once_single :
    ∃ tr s', Run (Step acceptAll) sampleSystem tr s' ∧
      tr.Pairwise fun t u => t.label.action = .persist → u.label.action ≠ .persist := by
  obtain ⟨tr, s', hrun, -⟩ := exists_sample_run
  exact ⟨tr, s', hrun, pairwise_persist hrun⟩

/-- A single submission is accepted, and the verdict is final. -/
theorem verdict_final_single :
    ∃ tr s', Run (Step acceptAll) sampleSystem tr s' ∧ s'.proof.state = .accepted ∧
      VerdictFinal acceptAll tr := by
  obtain ⟨tr, s', hrun, hs', -, htr⟩ := exists_sample_run
  refine ⟨tr, s', hrun, by rw [hs'], (verdict_final_iff acceptAll hrun).2 ?_⟩
  exact fun t ht hmark => absurd hmark (htr t ht)

end Sample

end OneCore.Verifier
