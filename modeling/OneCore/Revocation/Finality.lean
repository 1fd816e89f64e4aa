/-
# Revocation and other changes at the same time

A call that changes the state of a credential reads it first, and writes the entries and the state later.
A credential that was read as revoked is not changed any more.  But a suspension or a reactivation that has
read the credential before it was revoked goes on, and writes over the revocation.
-/
import OneCore.Revocation.Publication

namespace OneCore.Revocation

open Database List
open Oid4vci (CredentialState)
open Interleaving (stepsOf exists_trace_of_kind)

/-! ### What is stored of a credential -/

def Database.stateOf (db : Database) (credentialId : String) : Option CredentialState :=
  (db.credentials credentialId).map Credential.state

def Database.statusesOf (db : Database) (credentialId : String) : List RevocationListEntryStatus :=
  (db.entries.filter fun row => row.entity = .credential credentialId).map EntryRow.status

def Database.Revoked (db : Database) (credentialId : String) : Prop :=
  db.stateOf credentialId = some .revoked ∧ ∀ status ∈ db.statusesOf credentialId, status = .revoked

def writtenStatus (t : CallTransition) : Option RevocationListEntryStatus :=
  match t.label with
  | .steps _ (_, .updated _ status) => some status
  | _ => none

/-- The state that is written to a credential, which ends a call. -/
def writtenState (t : CallTransition) : Option CredentialState :=
  match t.label with
  | .steps _ (_, .stateWritten state) => some state
  | _ => none

def Overwrites (t : CallTransition) : Prop :=
  (∃ status ∈ writtenStatus t, status ≠ .revoked) ∨ ∃ state ∈ writtenState t, state ≠ .revoked

/-- A call has read the credential and may change it. -/
def Validates (t : CallTransition) : Prop :=
  ∃ i answer, t.label = .steps i (answer, .validated)

/-- All calls of a run change the state of the credential. -/
def ChangesOf (credentialId : String) (tr : List CallTransition) : Prop :=
  ∀ t ∈ tr, ∀ i call, t.label = .begins i call →
    ∃ change, call = .change (.read change) ∧ change.credentialId = credentialId

/-- When a revocation has returned, the credential is revoked and stays so. -/
def RevocationFinal (credentialId : String) (tr : List CallTransition) : Prop :=
  ∀ before r after, tr = before ++ r :: after → writtenState r = some .revoked →
    ∀ u ∈ r :: after, u.dst.shared.Revoked credentialId

/-- The last status that was written is that of a revocation. -/
def LastRevokes (tr : List CallTransition) : Prop :=
  Since (fun t => writtenStatus t = some .revoked) (fun t => ∃ status ∈ writtenStatus t, status ≠ .revoked) tr

/-- The last status before is that of a revocation, and no call that has read the credential before
overwrites it afterwards. -/
structure NotOverwritten (before after : List CallTransition) : Prop where
  status : LastRevokes before
  stale : ∀ i, (∃ v ∈ stepsOf i before, Validates v) → ∀ u ∈ stepsOf i after, ¬Overwrites u

variable {change : Change} {env : Environment}

section Stored

variable {db : Database} {credentialId : String}

lemma Database.statusesOf_updateEntry (status : RevocationListEntryStatus) :
    (db.updateEntry (.credential credentialId) status).statusesOf credentialId =
      (db.statusesOf credentialId).map fun _ => status := by
  have hrow : ∀ row : EntryRow, (if row.entity = .credential credentialId then { row with status }
      else row).entity = row.entity := by
    intro row
    split
    · rfl
    · rfl
  have hents : (db.updateEntry (.credential credentialId) status).entries = db.entries.map fun row =>
      if row.entity = .credential credentialId then { row with status } else row := by
    refine ext_getElem? fun entryId => ?_
    simp [updateEntry, UpdateRevocationListEntryId.selects]
  rw [statusesOf, statusesOf, hents, filter_map, map_map, map_map]
  simp only [Function.comp_def, hrow]
  refine map_congr_left fun row hmem => ?_
  rw [if_pos (of_decide_eq_true (mem_filter.1 hmem).2)]

/-- A change is allowed only if the credential is not revoked. -/
lemma checkChange_eq_ok {mark : Mark}
    (h : checkChange env db change = .ok mark) : mark.credentialId = change.credentialId ∧
      mark.newState = change.revocationState ∧ db.stateOf change.credentialId ≠ some .revoked := by
  simp only [checkChange, validateStateTransition, ok_iffs, exists_unit_iff] at h
  obtain ⟨credential, hcred, -, -, type, -, -, hst, kind, -, hmark⟩ := h
  have hrvd : db.stateOf change.credentialId ≠ some .revoked := by
    rw [Database.stateOf, hcred]
    intro heq
    rw [Option.some.inj heq] at hst
    cases hto : change.revocationState with
    | valid | revoked | suspended => simp [validStates, hto] at hst
  cases kind with
  | tokenStatusList =>
    obtain ⟨key, -, hmark⟩ := bind_eq_ok.1 hmark
    cases hmark
    exact ⟨rfl, rfl, hrvd⟩
  | bitstringStatusList =>
    cases hmark
    exact ⟨rfl, rfl, hrvd⟩

end Stored

/-! ### The steps of a call -/

/-- Where a call is that changes a credential, by the steps it has made. -/
def ChangeTrace (env : Environment) (change : Change) (steps : List CallTransition) :
    ChangeCall → Prop
  | .read change' => change' = change ∧ steps = []
  | .marking change' call => change' = change ∧ ∃ v mark rest, steps = v :: rest ∧ Validates v ∧
      checkChange env v.src.shared change = .ok mark ∧ MarkTrace env mark rest call
  | .write change' => change' = change ∧ ∃ v ∈ steps, ∃ u ∈ steps, ∃ mark, Validates v ∧
      checkChange env v.src.shared change = .ok mark ∧ Updates mark u

section Changes

variable {start : Database} {c : Configuration} {credentialId : String}
  {tr pre : List CallTransition} {t : CallTransition} {i : Nat}
  {answer : Answer} {event : Event}

lemma ChangeTrace.next {steps : List CallTransition}
    {call rest : ChangeCall} (h : ChangeTrace env change steps call)
    (hlab : t.label = .steps i (answer, event))
    (hnext : ChangeOutcome env t.src.shared call event t.dst.shared (some rest)) :
    ChangeTrace env change (steps ++ [t]) rest := by
  generalize hdst : t.dst.shared = db' at hnext
  cases hnext with
  | validated hchk =>
    obtain ⟨rfl, rfl⟩ := h
    exact ⟨rfl, t, _, [], rfl, ⟨i, answer, hlab⟩, hchk, rfl, rfl⟩
  | marking hmark =>
    obtain ⟨rfl, v, mark, steps, rfl, hv, hchk, htr⟩ := h
    exact ⟨rfl, v, mark, steps ++ [t], rfl, hv, hchk, htr.next hlab (hdst ▸ hmark)⟩
  | marked hmark =>
    obtain ⟨mark, formattedList, rfl, -, -⟩ := hmark.of_published
    obtain ⟨rfl, v, mark, steps, rfl, hv, hchk, rfl, f, u, r, rfl, -, hu, -, -⟩ := h
    exact ⟨rfl, v, by simp, u, by simp, mark, hv, hchk, hu⟩

section

variable (hchanges : ChangesOf credentialId tr) (h : Run (Step env) ⟨start, fun _ => .idle⟩ tr c)

include hchanges h

section Steps

variable (hpre : pre ++ [t] <+: tr)

include hpre

lemma exists_change (hlab : t.label = .steps i (answer, event)) :
    ∃ change call rest, change.credentialId = credentialId ∧
      ChangeTrace env change (stepsOf i pre) call ∧
      ChangeOutcome env t.src.shared call event t.dst.shared rest := by
  have hkind : ∀ {db call l db' rest}, Next env db (.change call) l db' rest →
      ∃ rest', rest = rest'.map Call.change ∧ ChangeOutcome env db call l.2 db' rest' := by
    rintro db call ⟨answer, event⟩ db' rest hstep
    cases outcome_of_advance hstep with
    | change h => exact ⟨_, rfl, h⟩
    | failed => exact ⟨none, rfl, .failed⟩
  have hbegins : ∀ u ∈ tr, ∀ i a, u.label = .begins i a → ∃ change, a = .change (.read change) := by
    intro u hu i a hbeg
    obtain ⟨change, ha, -⟩ := hchanges u hu i a hbeg
    exact ⟨change, ha⟩
  obtain ⟨change, call, rest, -, ⟨u, hu, hbeg⟩, htrace, hout⟩ := exists_trace_of_kind Call.change ChangeCall.read
    (ChangeTrace env) (fun db call l => ChangeOutcome env db call l.2) hkind (fun _ => ⟨rfl, rfl⟩)
    ChangeTrace.next hbegins h hpre hlab
  obtain ⟨_, ⟨⟩, hid⟩ := hchanges u (hpre.subset (mem_append_left _ hu)) i _ hbeg
  exact ⟨change, call, rest, hid, htrace, hout⟩

/-- What is stored after a step: what was written, and the rest as before. -/
lemma stored_of_step :
    t.dst.shared.stateOf credentialId = (writtenState t).or (t.src.shared.stateOf credentialId) ∧
      t.dst.shared.statusesOf credentialId = (writtenStatus t).elim (t.src.shared.statusesOf credentialId)
        fun status => (t.src.shared.statusesOf credentialId).map fun _ => status := by
  rcases (h.of_append_singleton hpre).2.effect with ⟨i, call, hlab, hshared⟩ | ⟨i, answer, event, hlab, -⟩
  · simp [writtenState, writtenStatus, hlab, hshared]
  obtain ⟨change, call, rest, rfl, htr, hout⟩ := exists_change hchanges h hpre hlab
  simp only [writtenState, writtenStatus, hlab]
  generalize t.dst.shared = db' at hout
  cases hout with
  | validated => exact ⟨rfl, rfl⟩
  | marking hmark =>
    cases hmark with
    | found => exact ⟨rfl, rfl⟩
    | updated =>
      obtain ⟨-, v, mark, steps, -, -, hchk, rfl, -⟩ := htr
      rw [← (checkChange_eq_ok hchk).1]
      exact ⟨rfl, Database.statusesOf_updateEntry _⟩
    | entriesRead => exact ⟨rfl, rfl⟩
  | marked hmark =>
    obtain ⟨_, _, -, -, hwr⟩ := hmark.of_published
    obtain ⟨-, rfl⟩ := Database.updateFormattedList_eq_ok_iff.1 hwr
    exact ⟨rfl, rfl⟩
  | written hwr =>
    obtain ⟨rfl, -⟩ := htr
    obtain ⟨credential, -, rfl⟩ := Database.updateCredential_eq_ok_iff.1 hwr
    exact ⟨by simp [Database.stateOf], rfl⟩
  | failed => exact ⟨rfl, rfl⟩

/-- A call that writes has read the credential when it was not revoked, and has written the entries before
it writes the state. -/
lemma exists_validates (hwrs : writtenStatus t ≠ none ∨ writtenState t ≠ none) :
    (∃ i event, t.label = .steps i event ∧ ∃ v ∈ stepsOf i pre, Validates v ∧
      v.src.shared.stateOf credentialId ≠ some .revoked) ∧
      (writtenState t ≠ none → ∃ u ∈ pre, writtenStatus u ≠ none) := by
  rcases (h.of_append_singleton hpre).2.effect with ⟨i, call, hlab, -⟩ | ⟨i, answer, event, hlab, -⟩
  · simp [writtenState, writtenStatus, hlab] at hwrs
  obtain ⟨change, call, rest, rfl, htr, hout⟩ := exists_change hchanges h hpre hlab
  simp only [writtenState, writtenStatus, hlab] at hwrs ⊢
  generalize t.dst.shared = db' at hout
  cases hout with
  | marking hmark =>
    cases hmark with
    | updated =>
      obtain ⟨rfl, v, mark, steps, hsteps, hv, hchk, -⟩ := htr
      exact ⟨⟨i, _, rfl, v, by simp [hsteps], hv, (checkChange_eq_ok hchk).2.2⟩, fun hne => absurd rfl hne⟩
    | found | entriesRead => simp at hwrs
  | written =>
    obtain ⟨rfl, v, hmem, u, hu, mark, hv, hchk, _, _, hlab'⟩ := htr
    exact ⟨⟨i, _, rfl, v, hmem, hv, (checkChange_eq_ok hchk).2.2⟩,
      fun _ => ⟨u, (mem_filter.1 hu).1, by simp [hlab']⟩⟩
  | validated | marked | failed => simp at hwrs

lemma Database.Revoked.step (hrvd : t.src.shared.Revoked credentialId) (hkept : ¬Overwrites t) :
    t.dst.shared.Revoked credentialId := by
  obtain ⟨hst, hsts⟩ := stored_of_step hchanges h hpre
  rw [Overwrites, not_or] at hkept
  rw [Database.Revoked, hst, hsts]
  refine ⟨?_, ?_⟩
  · cases hw : writtenState t with
    | none => exact hrvd.1
    | some state => simpa [hw] using hkept.2
  · cases hw : writtenStatus t with
    | none => exact hrvd.2
    | some status =>
      have hstatus : status = .revoked := by simpa [hw] using hkept.1
      simp [hstatus]

end Steps

variable (hentry : start.statusesOf credentialId ≠ [])

include hentry

/-- The entries are revoked if the last status that was written is that of a revocation. -/
lemma statuses_of_part {m : Configuration} (hpre : pre <+: tr)
    (hrun : Run (Step env) ⟨start, fun _ => .idle⟩ pre m) :
    m.shared.statusesOf credentialId ≠ [] ∧ ((∃ u ∈ pre, writtenStatus u ≠ none) →
      ((∀ status ∈ m.shared.statusesOf credentialId, status = .revoked) ↔ LastRevokes pre)) := by
  refine hrun.history (P := fun past c => c.shared.statusesOf credentialId ≠ [] ∧
    ((∃ u ∈ past, writtenStatus u ≠ none) →
      ((∀ status ∈ c.shared.statusesOf credentialId, status = .revoked) ↔ LastRevokes past)))
    ⟨hentry, by simp⟩ fun past t hpast _ hbef => ?_
  obtain ⟨hne, hiff⟩ := hbef
  rw [(stored_of_step hchanges h (hpast.trans hpre)).2, LastRevokes, Since.append_singleton_iff]
  cases hst : writtenStatus t with
  | none =>
    refine ⟨hne, ?_⟩
    rintro ⟨u, hu, hw⟩
    rcases mem_append.1 hu with hu | hu
    · exact (hiff ⟨u, hu, hw⟩).trans (by simp [LastRevokes])
    · exact absurd (mem_singleton.1 hu ▸ hst) hw
  | some status =>
    obtain ⟨first, rest, hcons⟩ := exists_cons_of_ne_nil hne
    refine ⟨by simp [hcons], fun _ => ?_⟩
    by_cases hrvd : status = .revoked
    · simp [hrvd]
    · simp [hrvd, hcons]

/-- After the return of a revocation the credential is revoked exactly if nothing has overwritten the
entries. -/
lemma revoked_of_returned (hpre : pre ++ [t] <+: tr) (hret : writtenState t = some .revoked) :
    t.dst.shared.Revoked credentialId ↔ LastRevokes pre := by
  have hupd := (exists_validates hchanges h hpre (.inr (by simp [hret]))).2 (by simp [hret])
  have hnone : writtenStatus t = none := by
    unfold writtenState at hret
    unfold writtenStatus
    split at hret
    · next hlab => rw [hlab]
    · cases hret
  obtain ⟨hst, hsts⟩ := stored_of_step hchanges h hpre
  have hiff := (statuses_of_part hchanges h hentry ((prefix_append pre [t]).trans hpre)
    (h.of_append_singleton hpre).1).2 hupd
  rw [Database.Revoked, hst, hsts, hret, hnone, ← hiff]
  simp

end

/-- For changes of one credential in any interleaving: a revocation is final exactly if, at its return, the
last status that was written is that of a revocation, and no suspension or reactivation that has read the
credential before the return writes afterwards. -/
theorem revocationFinal_iff (hchanges : ChangesOf credentialId tr)
    (h : Run (Step env) ⟨start, fun _ => .idle⟩ tr c) (hentry : start.statusesOf credentialId ≠ []) :
    RevocationFinal credentialId tr ↔ ∀ before r after, tr = before ++ r :: after →
      writtenState r = some .revoked → NotOverwritten before after := by
  refine forall_congr' fun before => forall_congr' fun r => forall_congr' fun after =>
    forall_congr' fun hspl => forall_congr' fun hret => ?_
  have hr : before ++ [r] <+: tr := ⟨after, by simp [hspl]⟩
  have hreturn := revoked_of_returned hchanges h hentry hr hret
  constructor
  · intro hfinal
    refine ⟨hreturn.1 (hfinal r mem_cons_self), fun i _ u hu hover => ?_⟩
    have haft : u ∈ after := (mem_filter.1 hu).1
    obtain ⟨hst, hsts⟩ := hfinal u (mem_cons_of_mem _ haft)
    obtain ⟨pre, hpre⟩ := exists_before_of_mem (show u ∈ tr by simp [hspl, haft])
    have hsto := stored_of_step hchanges h hpre
    rw [hsto.1] at hst
    rw [hsto.2] at hsts
    obtain ⟨first, rest, hcons⟩ := exists_cons_of_ne_nil (statuses_of_part hchanges h hentry
      ((prefix_append pre [u]).trans hpre) (h.of_append_singleton hpre).1).1
    rcases hover with ⟨status, hw, hne⟩ | ⟨state, hw, hne⟩
    · rw [Option.mem_def.1 hw] at hsts
      exact hne (hsts status (by simp [hcons]))
    · rw [Option.mem_def.1 hw] at hst
      exact hne (Option.some.inj hst)
  · intro hkept
    -- From the return on, a call that reads the credential fails.
    subst hspl
    obtain ⟨-, -, hrest⟩ := h.of_append_cons
    have hall := hrest.history (P := fun past c => c.shared.Revoked credentialId ∧
      ∀ u ∈ past, u.src.shared.Revoked credentialId ∧ u.dst.shared.Revoked credentialId)
      ⟨hreturn.2 hkept.status, by simp⟩ fun past t hpast _ hrvd => ?_
    · intro u hu
      rcases mem_cons.1 hu with rfl | hu
      · exact hreturn.2 hkept.status
      · exact (hall.2 u hu).2
    · obtain ⟨hsrc, hbef⟩ := hrvd
      have hpre : before ++ r :: past ++ [t] <+: before ++ r :: after := by
        obtain ⟨post, rfl⟩ := hpast
        exact ⟨post, by simp⟩
      have hdst : t.dst.shared.Revoked credentialId := by
        refine hsrc.step hchanges h hpre fun hover => ?_
        have hwrs : writtenStatus t ≠ none ∨ writtenState t ≠ none := by
          rcases hover with ⟨_, hw, -⟩ | ⟨_, hw, -⟩
          · exact .inl (Option.ne_none_iff_exists'.2 ⟨_, hw⟩)
          · exact .inr (Option.ne_none_iff_exists'.2 ⟨_, hw⟩)
        obtain ⟨⟨i, event, hlab, v, hv, hvalid, hst⟩, -⟩ := exists_validates hchanges h hpre hwrs
        obtain ⟨hv, hstep⟩ := mem_filter.1 hv
        rcases mem_append.1 hv with hv | hv
        · exact hkept.stale i ⟨v, mem_filter.2 ⟨hv, hstep⟩, hvalid⟩ t
            (Interleaving.mem_stepsOf (hpast.subset (by simp)) hlab) hover
        · rcases mem_cons.1 hv with rfl | hv
          · obtain ⟨_, _, hlab⟩ := hvalid
            simp [writtenState, hlab] at hret
          · exact hst (hbef v hv).1.1
      refine ⟨hdst, fun u hu => ?_⟩
      rcases mem_append.1 hu with hu | hu
      · exact hbef u hu
      · exact mem_singleton.1 hu ▸ ⟨hsrc, hdst⟩

end Changes

/-! ### A suspension that comes too late -/

def suspendableDatabase : Database :=
  { sampleDatabase with
    credentials := fun _ =>
      some ⟨"issuer", .did, none, some "o", some "TOKENSTATUSLIST", true, .accepted, none, none⟩ }

lemma next_read {db : Database} {mark : Mark} {listId : Nat} {list : Str}
    (hfmt : env.formatEntries mark.kind mark.key listId (db.getEntries listId) = .ok list) :
    Next env db (.change (.marking change (.read mark listId))) (.works, .entriesRead listId) db
      (some (.change (.marking change (.publish mark listId list)))) := by
  simp [Next, advance, changeStep, markStep, unlessRefused, hfmt, ChangeCall.afterMark]

/-- A call reads the credential, and the credential is revoked before the call suspends it. -/
lemma exists_late_suspension : ∃ before r u, Run (Step .sample) ⟨suspendableDatabase, fun _ => .idle⟩
    (before ++ [r, u]) u.dst ∧ ChangesOf "a" (before ++ [r, u]) ∧ writtenState r = some .revoked ∧
    (∀ t ∈ before, writtenState t = none) ∧ LastRevokes before ∧
    u.dst.shared.statusesOf "a" = [.suspended] := by
  have halc : (suspendableDatabase.updateEntry (.credential "a") .revoked).Allocated :=
    allocated_sampleDatabase.of_places (suspendableDatabase.places_updateEntry _ _) rfl
  obtain ⟨list, hfmt⟩ := exists_formatEntries halc (by decide) sampleRequest.key 0
  have hread : Next .sample _ (.change (.marking ⟨"a", .revoked, none⟩ (.read (sampleMark "a") 0))) _ _ _ :=
    next_read hfmt
  have hreq : ∀ state, Call.IsRequest .sample (.change (.read ⟨"a", state, none⟩)) := fun _ => trivial
  have hrun : Run (Step .sample) ⟨suspendableDatabase, fun _ => .idle⟩ _ _ :=
    .cons (.begins (i := 0) rfl (hreq (.suspended none)))
    (.cons (.steps (i := 0) rfl (show Next _ _ _ (.works, .validated) _ _ from rfl))
    (.cons (.steps (i := 0) rfl (show Next _ _ _ (.works, .found 0) _ _ from rfl))
    (.cons (.begins (i := 1) rfl (hreq .revoked))
    (.cons (.steps (i := 1) rfl (show Next _ _ _ (.works, .validated) _ _ from rfl))
    (.cons (.steps (i := 1) rfl (show Next _ _ _ (.works, .found 0) _ _ from rfl))
    (.cons (.steps (i := 1) rfl (show Next _ _ _ (.works, .updated (.credential "a") .revoked) _ _ from rfl))
    (.cons (.steps (i := 1) rfl hread)
    (.cons (.steps (i := 1) rfl (show Next _ _ _ (.works, .published 0) _ _ from rfl))
    (.cons (.steps (i := 1) rfl (show Next _ _ _ (.works, .stateWritten .revoked) _ _ from rfl))
    (.cons (.steps (i := 0) rfl (show Next _ _ _ (.works, .updated (.credential "a") .suspended) _ _ from rfl))
    (.refl _)))))))))))
  refine ⟨[_, _, _, _, _, _, _, _, _], _, _, hrun, by simp [ChangesOf], rfl, by simp [writtenState], ?_, rfl⟩
  exact ⟨[_, _, _, _, _, _], _, [_, _], rfl, rfl, by simp [writtenStatus]⟩

/-- The entry of a revoked credential becomes suspended. -/
theorem late_suspension_overwrites : ∃ tr c, Run (Step .sample) ⟨suspendableDatabase, fun _ => .idle⟩ tr c ∧
    ChangesOf "a" tr ∧ ¬RevocationFinal "a" tr := by
  obtain ⟨before, r, u, hrun, hchanges, hret, -, -, hsts⟩ := exists_late_suspension
  refine ⟨_, _, hrun, hchanges, fun hfinal => ?_⟩
  have hst := (hfinal before r [u] rfl hret u (by simp)).2 .suspended (by simp [hsts])
  cases hst

/-- Until then the revocation is final. -/
theorem revocation_final_until_then : ∃ tr c,
    Run (Step .sample) ⟨suspendableDatabase, fun _ => .idle⟩ tr c ∧ ChangesOf "a" tr ∧
      (∃ r ∈ tr, writtenState r = some .revoked) ∧ RevocationFinal "a" tr := by
  obtain ⟨before, r, u, hrun, hchanges, hret, hnone, hlast, -⟩ := exists_late_suspension
  rw [append_cons before r [u]] at hrun hchanges
  obtain ⟨m, hrun, -⟩ := hrun.exists_of_append
  have hchanges' : ChangesOf "a" (before ++ [r]) := fun t ht => hchanges t (mem_append_left _ ht)
  refine ⟨before ++ [r], m, hrun, hchanges', ⟨r, by simp, hret⟩,
    (revocationFinal_iff hchanges' hrun (by decide)).2 fun before' r' after heq hret' => ?_⟩
  rcases eq_nil_or_concat after with rfl | ⟨after, t, rfl⟩
  · obtain ⟨rfl, -⟩ := append_inj' heq rfl
    exact ⟨hlast, fun i _ u hu => absurd (mem_filter.1 hu).1 not_mem_nil⟩
  · rw [concat_eq_append, ← cons_append, ← append_assoc] at heq
    obtain ⟨rfl, -⟩ := append_inj' heq rfl
    cases (hnone r' (by simp)).symm.trans hret'

end OneCore.Revocation
