/-
# What is published

A call that marks a credential writes the status of its entries, then reads all entries of the list, and
publishes the list that is made of them.  Between the reading and the publication other calls may write and
publish.  So of the published list we only know that it shows the entries as they were when the call that
published last has read them.

All the calls here mark different credentials.  Then an entry changes at most once, and a change that
comes after this reading is missing from the list for good.
-/
import OneCore.Revocation.IndexAllocation

namespace OneCore.Revocation

open List Database Interleaving Function

/-! ### What a list shows -/

/-- What a list shows of an entry: a state, or a bit. -/
abbrev View := RevocationState ⊕ Bool

/-- What a list should show of an entry with the given status. -/
def viewOf (kind : MethodKind) (purpose : RevocationListPurpose) (status : RevocationListEntryStatus) : View :=
  match kind with
  | .tokenStatusList => .inl status.state
  | .bitstringStatusList => .inr (decide (MatchesPurpose status purpose))

def readStatus (env : Environment) (kind : MethodKind) (formattedList : Str) (index : Nat) : Option View := do
  let encodedList ← (env.readStatusListCredential formattedList).toOption
  match kind with
  | .tokenStatusList =>
    (extractStateFromToken env.token ⟨preferredEntrySize, encodedList⟩ index).toOption.map .inl
  | .bitstringStatusList => (extractBitstringIndex env.bitstring encodedList index).toOption.map .inr

/-- What a list should show, index by index. -/
def Database.views (kind : MethodKind) (purpose : RevocationListPurpose) (db : Database) (listId : Nat) :
    List (Nat × View) :=
  (db.statesOf listId).map fun state => (state.1, viewOf kind purpose state.2)

/-- The published list shows the status of every entry. -/
def PublishedMatches (env : Environment) (db : Database) (listId : Nat) : Prop :=
  ∀ list kind, db.lists[listId]? = some list → env.kind list.key.type = some kind →
    ∀ view ∈ db.views kind list.key.purpose listId,
      readStatus env kind list.formattedList view.1 = some view.2

variable {env : Environment} {start db db' : Database} {c c' : Configuration} {listId i entryId : Nat}
  {tr pre : List CallTransition} {t : CallTransition} {list : RevocationList} {kind : MethodKind}
  {key : ListKey} {purpose : RevocationListPurpose} {event : Event}

lemma mem_of_nodup_fst {α : Type*} {states : List (Nat × α)} (hdst : (states.map Prod.fst).Nodup)
    {state : Nat × α} (hst : state ∈ states) {a : α} : (state.1, a) ∈ states ↔ state.2 = a := by
  refine ⟨fun hmem => ?_, fun heq => heq ▸ hst⟩
  have hsame : (state.1, a) = state := inj_on_of_nodup_map hdst hmem hst rfl
  rw [← hsame]

lemma Database.Allocated.nodup_fst_statesOf (h : db.Allocated) :
    ((db.statesOf listId).map Prod.fst).Nodup := by
  rw [h.map_fst_statesOf]
  exact nodup_range

variable {encodedList : Str} {state : Nat × RevocationListEntryStatus}

lemma extractStateFromToken_of_encode (h : db.Allocated)
    (henc : env.encode .tokenStatusList purpose (db.getEntries listId) = .ok encodedList)
    (hst : state ∈ db.statesOf listId) :
    extractStateFromToken env.token ⟨preferredEntrySize, encodedList⟩ state.1 = .ok state.2.state := by
  have hwidth : IsWidth preferredEntrySize := by decide
  rw [encode_token env purpose h, mapError_eq_ok] at henc
  have hroom : state.1 * preferredEntrySize <
      calculatePreferredTokenSize (db.statesOf listId).length preferredEntrySize := by
    have hlt := h.index_lt state hst
    unfold calculatePreferredTokenSize preferredEntrySize
    omega
  rw [extractStateFromToken_of_generateToken (suspensionFits_preferredEntrySize _) hwidth henc hroom,
    stateOfBits_of_mem h.nodup_fst_statesOf hst]

lemma extractBitstringIndex_of_encode (h : db.Allocated)
    (henc : env.encode .bitstringStatusList purpose (db.getEntries listId) = .ok encodedList)
    (hst : state ∈ db.statesOf listId) :
    extractBitstringIndex env.bitstring encodedList state.1 =
      .ok (decide (MatchesPurpose state.2 purpose)) := by
  have hidx : indexStates (db.getEntries listId) = .ok (db.statesOf listId) :=
    h.indexStates_getEntries
  rw [Environment.encode, generateBitstringFromEntries, purposeStates_of_indexStates purpose hidx,
    Except.mapError_ok, Except.ok_bind, mapError_eq_ok, mapError_eq_ok] at henc
  have hlt := h.index_lt state hst
  have hpadded := BitPacking.le_padded (calculateBitstringSize (db.statesOf listId).length)
  have hsize : (db.statesOf listId).length ≤ calculateBitstringSize (db.statesOf listId).length :=
    Nat.le_max_left _ _
  rw [extractBitstringIndex_of_generateBitstring henc, length_map, if_pos (by omega)]
  refine congrArg Except.ok (decide_eq_decide.2 ?_)
  rw [← getRevocationEntryState_eq_true_iff]
  refine mem_of_nodup_fst ?_ (mem_map_of_mem (f := fun state : Nat × RevocationListEntryStatus =>
    (state.1, getRevocationEntryState state.2 purpose)) hst)
  rw [map_map]
  exact h.nodup_fst_statesOf

lemma readStatus_of_formatEntries (h : db.Allocated) {formattedList : Str}
    (hfmt : env.formatEntries kind key listId (db.getEntries listId) = .ok formattedList) :
    ∀ view ∈ db.views kind key.purpose listId,
      readStatus env kind formattedList view.1 = some view.2 := by
  intro view hview
  obtain ⟨state, hst, rfl⟩ := mem_map.1 hview
  simp only [Environment.formatEntries, ok_iffs] at hfmt
  obtain ⟨encodedList, henc, hcred⟩ := hfmt
  rw [readStatus, env.read_of_format hcred]
  cases kind with
  | tokenStatusList =>
    have hext := extractStateFromToken_of_encode h henc hst
    simp [Except.toOption, hext, viewOf]
  | bitstringStatusList =>
    have hext := extractBitstringIndex_of_encode h henc hst
    simp [Except.toOption, hext, viewOf]

/-! ### The steps of a call -/

/-- All the calls of a run mark credentials, and none of them the same. -/
structure MarksDifferent (tr : List (Transition Configuration CallLabel)) : Prop where
  marks : ∀ t ∈ tr, ∀ i call, t.label = .begins i call → ∃ mark, call = .mark (.find mark)
  different : ∀ t ∈ tr, ∀ u ∈ tr, ∀ i j mark mark', t.label = .begins i (.mark (.find mark)) →
    u.label = .begins j (.mark (.find mark')) → mark.credentialId = mark'.credentialId → i = j

def UpdatesCredential (credentialId : String) (t : Transition Configuration CallLabel) : Prop :=
  ∃ i answer status, t.label = .steps i (answer, .updated (.credential credentialId) status)

def Publishes (i listId : Nat) (t : Transition Configuration CallLabel) : Prop :=
  ∃ answer, t.label = .steps i (answer, .published listId)

def ReadsEntries (i listId : Nat) (t : Transition Configuration CallLabel) : Prop :=
  ∃ answer, t.label = .steps i (answer, .entriesRead listId)

def FindsList (mark : Mark) (listId : Nat) (t : Transition Configuration CallLabel) : Prop :=
  (∃ i answer, t.label = .steps i (answer, .found listId)) ∧
    t.src.shared.getRevocationByIssuerIdentifierId mark.key = some listId

def Updates (mark : Mark) (t : Transition Configuration CallLabel) : Prop :=
  ∃ i answer, t.label = .steps i (answer, .updated (.credential mark.credentialId) mark.newState.toEntryStatus)

/-- Where a call is that marks a credential, by the steps it has made.  What it is about to publish is made
of the entries as it has read them. -/
def MarkTrace (env : Environment) (mark : Mark) (steps : List (Transition Configuration CallLabel)) :
    MarkCall → Prop
  | .find mark' => mark' = mark ∧ steps = []
  | .update mark' listId => mark' = mark ∧ ∃ f, steps = [f] ∧ FindsList mark listId f
  | .read mark' listId => mark' = mark ∧ ∃ f u, steps = [f, u] ∧ FindsList mark listId f ∧ Updates mark u
  | .publish mark' listId formattedList => mark' = mark ∧ ∃ f u r, steps = [f, u, r] ∧
      FindsList mark listId f ∧ Updates mark u ∧ (∃ i, ReadsEntries i listId r) ∧
      env.formatEntries mark.kind mark.key listId (r.src.shared.getEntries listId) = .ok formattedList

variable {status : RevocationListEntryStatus}

section Marks

variable {answer : Answer}

lemma MarkTrace.next {mark : Mark} {steps : List CallTransition} {call rest : MarkCall}
    (h : MarkTrace env mark steps call) (hlab : t.label = .steps i (answer, event))
    (hnext : MarkOutcome env t.src.shared call event t.dst.shared (some rest)) :
    MarkTrace env mark (steps ++ [t]) rest := by
  generalize t.dst.shared = db' at hnext
  cases hnext with
  | found hget =>
    obtain ⟨rfl, rfl⟩ := h
    exact ⟨rfl, t, rfl, ⟨i, answer, hlab⟩, hget⟩
  | updated =>
    obtain ⟨rfl, f, rfl, hf⟩ := h
    exact ⟨rfl, f, t, rfl, hf, i, answer, hlab⟩
  | entriesRead hfmt =>
    obtain ⟨rfl, f, u, rfl, hf, hu⟩ := h
    exact ⟨rfl, f, u, t, rfl, hf, hu, ⟨i, answer, hlab⟩, hfmt⟩

variable (hmarks : MarksDifferent tr) (h : Run (Step env) ⟨start, fun _ => .idle⟩ tr c)

include hmarks h

lemma MarksDifferent.exists_mark (hpre : pre ++ [t] <+: tr)
    (hlab : t.label = .steps i (answer, event)) :
    ∃ mark call rest, env.kind mark.key.type = some mark.kind ∧
      (∃ u ∈ pre, u.label = .begins i (.mark (.find mark))) ∧
      MarkTrace env mark (stepsOf i pre) call ∧
      MarkOutcome env t.src.shared call event t.dst.shared rest := by
  obtain ⟨mark, call, rest, hreq, hbeg, htrace, hout⟩ := exists_trace_of_kind Call.mark MarkCall.find
    (MarkTrace env) (fun db call l => MarkOutcome env db call l.2)
    (fun hstep => (outcome_of_advance hstep).of_mark) (fun _ => ⟨rfl, rfl⟩) MarkTrace.next hmarks.marks h hpre hlab
  exact ⟨mark, call, rest, hreq.1, hbeg, htrace, hout⟩

/-- The entries that are written are those of the credential that a call marks, which has not written
before. -/
lemma MarksDifferent.exists_mark_of_updated (hpre : pre ++ [t] <+: tr)
    {id : UpdateRevocationListEntryId} (hlab : t.label = .steps i (answer, .updated id status)) :
    ∃ mark, (∃ u ∈ pre, u.label = .begins i (.mark (.find mark))) ∧ id = .credential mark.credentialId ∧
      ∀ u ∈ pre, ∀ answer id status, u.label ≠ .steps i (answer, .updated id status) := by
  obtain ⟨mark, call, rest, -, hbeg, htrace, hout⟩ := hmarks.exists_mark h hpre hlab
  generalize t.dst.shared = db' at hout
  cases hout
  obtain ⟨rfl, f, hsteps, ⟨_, _, hf⟩, -⟩ := htrace
  refine ⟨_, hbeg, rfl, fun u hu answer id status hu' => ?_⟩
  have hmem := mem_stepsOf hu hu'
  rw [hsteps, mem_singleton] at hmem
  subst hmem
  cases hf.symm.trans hu'

/-- The entries of a credential are written once. -/
lemma MarksDifferent.pairwise_updatesCredential :
    tr.Pairwise fun t u => ∀ credentialId, UpdatesCredential credentialId t →
      ¬UpdatesCredential credentialId u := by
  refine pairwise_of_forall_before fun pre u hpre t ht credentialId => ?_
  rintro ⟨i, _, _, htlabel⟩ ⟨j, _, _, hulabel⟩
  obtain ⟨before, hbef⟩ := exists_before_of_mem ht
  have hprefix : before ++ [t] <+: tr :=
    hbef.trans ((prefix_append pre [u]).trans hpre)
  obtain ⟨mark, ⟨b, hb, hbeg⟩, hid, -⟩ := hmarks.exists_mark_of_updated h hprefix htlabel
  obtain ⟨mark', ⟨b', hb', hbeg'⟩, hid', hfst⟩ := hmarks.exists_mark_of_updated h hpre hulabel
  have hsame : mark.credentialId = mark'.credentialId :=
    UpdateRevocationListEntryId.credential.inj (hid.symm.trans hid')
  have hbmem : b ∈ tr := hprefix.subset (mem_append_left _ hb)
  have hbmem' : b' ∈ tr := hpre.subset (mem_append_left _ hb')
  obtain rfl := hmarks.different b hbmem b' hbmem' i j mark mark' hbeg hbeg' hsame
  exact hfst t ht _ _ _ htlabel

end Marks

/-! ### Where a published list comes from -/

lemma Effect.list_eq (h : Effect db event db') (hev : event ≠ .published listId)
    (hlist : db.lists[listId]? = some list) : db'.lists[listId]? = some list := by
  cases h with
  | unchanged => exact hlist
  | started =>
    rw [List.getElem?_append_left (List.getElem?_eq_some_iff.1 hlist).1]
    exact hlist
  | added => exact hlist
  | updated => exact hlist
  | published =>
    have hne : _ ≠ listId := fun heq => hev (congrArg Event.published heq)
    exact (getElem?_modify_ne _ _ hne).trans hlist
  | stateWritten => exact hlist

lemma Effect.key_eq (h : Effect db event db')
    (hkey : db.lists[listId]?.map RevocationList.key = some key) :
    db'.lists[listId]?.map RevocationList.key = some key := by
  obtain ⟨list, hlist, rfl⟩ := Option.map_eq_some_iff.1 hkey
  by_cases hev : event = .published listId
  · subst hev
    cases h with
    | unchanged hreads => cases hreads
    | published =>
      refine (congrArg (Option.map RevocationList.key) (getElem?_modify_eq _ _ _)).trans ?_
      rw [hlist]
      rfl
  · rw [h.list_eq hev hlist]
    rfl

lemma Database.key_of_getRevocation (h : db.getRevocationByIssuerIdentifierId key = some listId) :
    db.lists[listId]?.map RevocationList.key = some key := by
  obtain ⟨hlt, hkey, -⟩ := findIdx?_eq_some_iff_getElem.1 h
  rw [getElem?_eq_getElem hlt]
  exact congrArg some (of_decide_eq_true hkey)

/-! ### What is shown -/

/-- The part of a run since which the published list shows the entries: the call that is the last one to
publish it reads them there, or it is the whole run if there is no publication. -/
inductive SinceShown (listId : Nat) (tr : List (Transition Configuration CallLabel)) :
    List (Transition Configuration CallLabel) → Prop
  | read {before mid later : List (Transition Configuration CallLabel)}
      {r p : Transition Configuration CallLabel} {i : Nat} (htr : tr = before ++ r :: (mid ++ p :: later))
      (hr : ReadsEntries i listId r) (hmid : stepsOf i mid = [])
      (hp : Publishes i listId p) (hlater : ∀ q ∈ later, ∀ j, ¬Publishes j listId q) :
      SinceShown listId tr (r :: (mid ++ p :: later))
  | start (hno : ∀ t ∈ tr, ∀ i, ¬Publishes i listId t) : SinceShown listId tr tr

section Shown

lemma list_of_run (h : Run (Step env) c tr c') (hno : ∀ t ∈ tr, ∀ i, ¬Publishes i listId t)
    (hlist : c.shared.lists[listId]? = some list) : c'.shared.lists[listId]? = some list := by
  refine h.preserves (P := fun c => c.shared.lists[listId]? = some list) (fun t ht hstep hsrc => ?_) hlist
  rcases hstep.effect with ⟨_, _, -, hshared⟩ | ⟨i, answer, event, hlab, heff⟩
  · rw [hshared]
    exact hsrc
  · refine heff.list_eq ?_ hsrc
    rintro rfl
    exact hno t ht i ⟨answer, hlab⟩

lemma key_of_run (h : Run (Step env) c tr c')
    (hkey : c.shared.lists[listId]?.map RevocationList.key = some key) :
    c'.shared.lists[listId]?.map RevocationList.key = some key := by
  refine h.preserves (P := fun c => c.shared.lists[listId]?.map RevocationList.key = some key)
    (fun t _ hstep hsrc => ?_) hkey
  rcases hstep.effect with ⟨_, _, -, hshared⟩ | ⟨_, _, _, -, heff⟩
  · rw [hshared]
    exact hsrc
  · exact heff.key_eq hsrc

variable (hmarks : MarksDifferent tr) (h : Run (Step env) ⟨start, fun _ => .idle⟩ tr c)
  (hlist : start.lists[listId]? = some list) (hkind : env.kind list.key.type = some kind)

include hmarks h hlist hkind

/-- What is published in a step was made of the entries as the call has read them in its last step. -/
lemma exists_read_of_publishes (hpre : pre ++ [t] <+: tr) (hpubl : Publishes i listId t) :
    ∃ steps r formattedList, stepsOf i pre = steps ++ [r] ∧ (∃ j, ReadsEntries j listId r) ∧
      env.formatEntries kind list.key listId (r.src.shared.getEntries listId) = .ok formattedList ∧
      t.dst.shared.lists[listId]? = some ⟨list.key, formattedList⟩ := by
  obtain ⟨answer, hlab⟩ := hpubl
  obtain ⟨mark, call, rest, hkind', -, htrace, hout⟩ := hmarks.exists_mark h hpre hlab
  obtain ⟨mark, formattedList, rfl, rfl, hwr⟩ := hout.of_published
  obtain ⟨rfl, f, u, r, hsteps, hf, -, hread, hfmt⟩ := htrace
  have hkey : ∀ {c tr}, Run (Step env) ⟨start, fun _ => .idle⟩ tr c → _ := fun hrun =>
    key_of_run hrun (congrArg (Option.map RevocationList.key) hlist)
  -- The list has the key by which it was found.
  have hfmem : f ∈ tr := by
    have hmem : f ∈ stepsOf i pre := by simp [hsteps]
    exact hpre.subset (mem_append_left _ (mem_filter.1 hmem).1)
  obtain ⟨_, _, -, hbef, -, -⟩ := h.split_of_mem hfmem
  have hsame : list.key = mark.key := mem_unique (hkey hbef) (key_of_getRevocation hf.2)
  rw [← hsame] at hkind' hfmt
  obtain rfl := mem_unique hkind' hkind
  refine ⟨[f, u], r, formattedList, hsteps, hread, hfmt, ?_⟩
  obtain ⟨list', hlist', hkeyl⟩ := Option.map_eq_some_iff.1 (hkey (h.of_append_singleton hpre).1)
  obtain ⟨-, hdst⟩ := updateFormattedList_eq_ok_iff.1 hwr
  rw [← hkeyl, ← hdst]
  refine (getElem?_modify_eq _ _ _).trans ?_
  rw [hlist']
  rfl

lemma exists_sinceShown : ∃ rest, SinceShown listId tr rest := by
  by_cases hpub : ∃ t ∈ tr, ∃ i, Publishes i listId t
  · obtain ⟨t, ht, hpubl⟩ := hpub
    obtain ⟨pre, p, later, rfl, ⟨i, hp⟩, hlater⟩ :=
      Since.of_mem (P := fun t => ∃ i, Publishes i listId t) ht hpubl
    have hpre : pre ++ [p] <+: pre ++ p :: later := ⟨later, by simp⟩
    obtain ⟨steps, r, -, hsteps, ⟨j, answer, hread⟩, -⟩ :=
      exists_read_of_publishes hmarks h hlist hkind hpre hp
    obtain ⟨before, after, rfl, -, haft⟩ := filter_eq_append_iff.1 hsteps
    obtain ⟨before', mid, rfl, -, hr, hmid⟩ := filter_eq_cons_iff.1 haft
    have hi : j = i := by
      rw [hread] at hr
      exact of_decide_eq_true hr
    subst hi
    have htr : before ++ (before' ++ r :: mid) ++ p :: later =
        before ++ before' ++ r :: (mid ++ p :: later) := by simp
    exact ⟨_, .read htr ⟨answer, hread⟩ hmid hp fun q hq k hk => hlater q hq ⟨k, hk⟩⟩
  · exact ⟨tr, .start fun t ht i hi => hpub ⟨t, ht, i, hi⟩⟩

lemma SinceShown.shows {rest : List CallTransition} (hrest : SinceShown listId tr rest)
    (hstart : start.Allocated)
    (hpub : PublishedMatches env start listId ∨ ∃ t ∈ tr, ∃ i, Publishes i listId t) :
    ∃ before m formattedList, tr = before ++ rest ∧ Run (Step env) m rest c ∧
      c.shared.lists[listId]? = some ⟨list.key, formattedList⟩ ∧
      ∀ view ∈ m.shared.views kind list.key.purpose listId,
        readStatus env kind formattedList view.1 = some view.2 := by
  cases hrest with
  | @read before mid later r p i htr hr hmid hp hlater =>
    subst htr
    have hpre : before ++ r :: mid ++ [p] <+: before ++ r :: (mid ++ p :: later) := ⟨later, by simp⟩
    obtain ⟨steps, r', formattedList, hsteps, -, hfmt, hwrt⟩ :=
      exists_read_of_publishes hmarks h hlist hkind hpre hp
    obtain rfl : r' = r := by
      obtain ⟨answer, hr⟩ := hr
      have hlast : stepsOf i (before ++ r :: mid) = stepsOf i before ++ [r] := by
        rw [stepsOf, filter_append,
          filter_cons_of_pos (by simp [hr, Interleaving.Label.isStepOf])]
        exact congrArg (stepsOf i before ++ r :: ·) hmid
      exact singleton_inj.1 (append_inj' (hsteps.symm.trans hlast) rfl).2
    obtain ⟨hbef, hstep, haft⟩ := h.of_append_cons
    obtain ⟨-, -, hend⟩ := haft.of_append_cons
    exact ⟨before, _, formattedList, rfl, Run.cons_iff.2 ⟨rfl, hstep, haft⟩, list_of_run hend hlater hwrt,
      readStatus_of_formatEntries (allocated_of_run hbef hstart) hfmt⟩
  | start hno =>
    have hmatc := hpub.resolve_right (by
      rintro ⟨t, ht, i, hi⟩
      exact hno t ht i hi)
    exact ⟨[], _, list.formattedList, rfl, h, list_of_run h hno hlist, hmatc list kind hlist hkind⟩

end Shown

/-! ### What the entries are to show -/

/-- What a list is to show of an entry, if it is one of its own. -/
def EntryRow.viewIn (kind : MethodKind) (purpose : RevocationListPurpose) (listId : Nat) (row : EntryRow) :
    Option (Nat × View) :=
  if row.revocationListId = listId then
    row.index.map fun index => (index, viewOf kind purpose row.status)
  else none

lemma Database.views_eq :
    db.views kind purpose listId = db.entries.filterMap (EntryRow.viewIn kind purpose listId) := by
  rw [views, statesOf, rowsOf, map_filterMap, filterMap_filter]
  refine filterMap_congr fun row _ => ?_
  by_cases hlist : row.revocationListId = listId
  · simp [EntryRow.viewIn, hlist, comp_def]
  · simp [EntryRow.viewIn, hlist]

lemma Database.mem_views {index : Nat} {view : View} :
    (index, view) ∈ db.views kind purpose listId ↔ ∃ (entryId : Nat) (row : EntryRow),
      db.entries[entryId]? = some row ∧ row.revocationListId = listId ∧ row.index = some index ∧
        viewOf kind purpose row.status = view := by
  rw [views_eq, mem_filterMap]
  constructor
  · rintro ⟨row, hrow, hview⟩
    obtain ⟨entryId, hent⟩ := mem_iff_getElem?.1 hrow
    unfold EntryRow.viewIn at hview
    split at hview
    · next hlist =>
      obtain ⟨_, hidx, heq⟩ := Option.map_eq_some_iff.1 hview
      cases heq
      exact ⟨entryId, row, hent, hlist, hidx, rfl⟩
    · cases hview
  · rintro ⟨entryId, row, hent, hlist, hidx, rfl⟩
    refine ⟨row, mem_of_getElem? hent, ?_⟩
    rw [EntryRow.viewIn, if_pos hlist, hidx]
    rfl

variable {row : EntryRow} {id : UpdateRevocationListEntryId}

lemma Database.entry_updateEntry
    (hrow : db.entries[entryId]? = some row) : (db.updateEntry id status).entries[entryId]? =
      some (if id.selects entryId row then { row with status } else row) := by
  rw [updateEntry, getElem?_mapIdx, hrow]
  rfl

/-- If the list is to show something else after an update, then so it is for one of the entries. -/
lemma Database.exists_row_of_views_ne
    (h : db.views kind purpose listId ≠ (db.updateEntry id status).views kind purpose listId) :
    ∃ (entryId : Nat) (row : EntryRow), db.entries[entryId]? = some row ∧ id.selects entryId row = true ∧
      row.revocationListId = listId ∧ viewOf kind purpose row.status ≠ viewOf kind purpose status := by
  by_contra hnone
  have hmap : db.entries.map (EntryRow.viewIn kind purpose listId) =
      (db.updateEntry id status).entries.map (EntryRow.viewIn kind purpose listId) := by
    refine ext_getElem? fun entryId => ?_
    rw [getElem?_map, getElem?_map]
    cases hrow : db.entries[entryId]? with
    | none =>
      rw [updateEntry, getElem?_mapIdx, hrow]
      rfl
    | some row =>
      rw [entry_updateEntry hrow, Option.map_some]
      split
      · next hsels =>
        by_cases hlist : row.revocationListId = listId
        · have hview : viewOf kind purpose row.status = viewOf kind purpose status :=
            by_contra fun hne => hnone ⟨entryId, row, hrow, hsels, hlist, hne⟩
          simp [EntryRow.viewIn, hview]
        · simp [EntryRow.viewIn, hlist]
      · rfl
  have hflt : ∀ rows : List EntryRow, rows.filterMap (EntryRow.viewIn kind purpose listId) =
      (rows.map (EntryRow.viewIn kind purpose listId)).filterMap fun view => view := by
    intro rows
    rw [filterMap_map]
    rfl
  rw [views_eq, views_eq, hflt, hflt, hmap] at h
  exact h rfl

/-! ### No update is lost -/

section

variable {m : Configuration} {part : List CallTransition} (hmarks : MarksDifferent tr)
  (h : Run (Step env) ⟨start, fun _ => .idle⟩ tr c)

include hmarks h

/-- A step of a call that marks a credential writes to no entries but those of the credential. -/
lemma MarksDifferent.entries_eq_or (ht : t ∈ tr) :
    t.dst.shared.entries = t.src.shared.entries ∨ ∃ credentialId status,
      UpdatesCredential credentialId t ∧
        t.dst.shared.entries = (t.src.shared.updateEntry (.credential credentialId) status).entries := by
  obtain ⟨pre, hpre⟩ := exists_before_of_mem ht
  rcases (h.step_of_mem ht).effect with ⟨_, _, -, hshared⟩ | ⟨i, answer, event, hlab, -⟩
  · exact .inl (congrArg entries hshared)
  obtain ⟨mark, call, rest, -, -, -, hout⟩ := hmarks.exists_mark h hpre hlab
  generalize t.dst.shared = db' at hout
  cases hout with
  | updated => exact .inr ⟨_, _, ⟨i, answer, _, hlab⟩, rfl⟩
  | published hwr =>
    obtain ⟨-, rfl⟩ := updateFormattedList_eq_ok_iff.1 hwr
    exact .inl rfl
  | _ => exact .inl rfl

variable {m' : Configuration}

/-- So an entry is as it was while its credential is not updated. -/
lemma MarksDifferent.entry_of_run (hpart : part ⊆ tr)
    (hrun : Run (Step env) m part m') {credentialId : String}
    (hety : row.entity = .credential credentialId)
    (hno : ∀ t ∈ part, ¬UpdatesCredential credentialId t)
    (hrow : m.shared.entries[entryId]? = some row) : m'.shared.entries[entryId]? = some row := by
  refine hrun.preserves (P := fun m => m.shared.entries[entryId]? = some row)
    (fun t ht _ hsrc => ?_) hrow
  rcases hmarks.entries_eq_or h (hpart ht) with heq | ⟨credentialId', status, hupda, heq⟩
  · rw [heq]
    exact hsrc
  · have hoth : ¬(UpdateRevocationListEntryId.credential credentialId').selects entryId row = true := by
      intro hsels
      have hsame : row.entity = .credential credentialId' := of_decide_eq_true hsels
      obtain rfl := RevocationListEntityId.credential.inj (hety.symm.trans hsame)
      exact hno t ht hupda
    rw [heq, entry_updateEntry hsrc, if_neg hoth]

lemma MarksDifferent.places_of_run (hpart : part ⊆ tr)
    (hrun : Run (Step env) m part m') : m'.shared.places = m.shared.places := by
  refine hrun.preserves (P := fun m' => m'.shared.places = m.shared.places) (fun t ht _ hsrc => ?_) rfl
  rw [← hsrc]
  rcases hmarks.entries_eq_or h (hpart ht) with heq | ⟨credentialId, status, -, heq⟩
  · exact congrArg (map EntryRow.place) heq
  · exact (congrArg (map EntryRow.place) heq).trans (places_updateEntry _ _ _)

/-- If what a list is to show changes in a step, it has been different for one entry before, and stays so. -/
lemma MarksDifferent.views_of_change (hstart : start.Allocated)
    {before between after : List CallTransition}
    {u : CallTransition} (htr : tr = before ++ (between ++ u :: after))
    (hm : Run (Step env) m (between ++ u :: after) c)
    (hne : u.src.shared.views kind purpose listId ≠ u.dst.shared.views kind purpose listId) :
    ∃ index view view', view ≠ view' ∧ (index, view) ∈ m.shared.views kind purpose listId ∧
      (index, view') ∈ c.shared.views kind purpose listId := by
  have hu : u ∈ tr := by simp [htr]
  obtain ⟨hbtw, -, haft⟩ := hm.of_append_cons
  rcases hmarks.entries_eq_or h hu with heq | ⟨credentialId, status, hupda, heq⟩
  · rw [views_eq, views_eq, heq] at hne
    exact absurd rfl hne
  rw [views_eq, views_eq, heq, ← views_eq, ← views_eq] at hne
  obtain ⟨entryId, row, hrow, hsels, hlist, hview⟩ := exists_row_of_views_ne hne
  have hety : row.entity = .credential credentialId := of_decide_eq_true hsels
  -- It is the only update of the credential.
  have honce := hmarks.pairwise_updatesCredential h
  rw [htr, ← append_assoc, pairwise_append] at honce
  obtain ⟨-, hrest, hfst⟩ := honce
  have hnobe : ∀ t ∈ between, ¬UpdatesCredential credentialId t := fun t ht hupda' =>
    hfst t (mem_append_right _ ht) u mem_cons_self credentialId hupda' hupda
  have hnoaf : ∀ t ∈ after, ¬UpdatesCredential credentialId t := fun t ht =>
    (pairwise_cons.1 hrest).1 t ht credentialId hupda
  have hsubset : ∀ {part}, part ⊆ between ++ u :: after → part ⊆ tr := fun hpart t ht =>
    htr ▸ mem_append_right _ (hpart ht)
  -- Before it the entry was as it is then, and afterwards it has the new status.
  obtain ⟨row₀, hrow₀, hplace⟩ : ∃ row₀, m.shared.entries[entryId]? = some row₀ ∧
      row₀.place = row.place := by
    have hpls := hmarks.places_of_run h (hsubset (subset_append_left _ _)) hbtw
    have hget := congrArg (·[entryId]?) hpls
    simp only [places, getElem?_map, hrow] at hget
    exact Option.map_eq_some_iff.1 hget.symm
  have hentity₀ : row₀.entity = .credential credentialId :=
    (congrArg (·.2.2) hplace).trans hety
  have hkept := hmarks.entry_of_run h (hsubset (subset_append_left _ _)) hbtw hentity₀ hnobe hrow₀
  obtain rfl := mem_unique hkept hrow
  have hafte : u.dst.shared.entries[entryId]? = some { row₀ with status } := by
    rw [heq, entry_updateEntry hrow, if_pos hsels]
  have hlast := hmarks.entry_of_run h (hsubset (by simp)) haft
    (show EntryRow.entity { row₀ with status } = _ from hentity₀) hnoaf hafte
  obtain ⟨index, hidx⟩ : ∃ index, row₀.index = some index := by
    obtain ⟨pre, hpre⟩ := exists_before_of_mem hu
    have halc := allocated_of_run (h.of_append_singleton hpre).1 hstart
    have hmem : row₀ ∈ u.src.shared.rowsOf listId :=
      mem_filter.2 ⟨mem_of_getElem? hrow, decide_eq_true hlist⟩
    exact Option.ne_none_iff_exists'.1 (halc.index_ne_none row₀ hmem)
  exact ⟨index, _, _, hview, mem_views.2 ⟨entryId, row₀, hrow₀, hlist, hidx, rfl⟩,
    mem_views.2 ⟨entryId, _, hlast, hlist, hidx, rfl⟩⟩

end

/-- However many calls mark different credentials at the same time, and whatever fails, the published list
shows the status of every entry exactly if nothing changes of what it is to show once the call that
publishes it last has read the entries. -/
theorem publishedMatches_iff (hstart : start.Allocated)
    (h : Run (Step env) ⟨start, fun _ => .idle⟩ tr c) (hmarks : MarksDifferent tr)
    (hlist : start.lists[listId]? = some list) (hkind : env.kind list.key.type = some kind)
    (hpublished : PublishedMatches env start listId ∨ ∃ t ∈ tr, ∃ i, Publishes i listId t) :
    PublishedMatches env c.shared listId ↔ ∀ rest, SinceShown listId tr rest → ∀ u ∈ rest,
      u.src.shared.views kind list.key.purpose listId =
        u.dst.shared.views kind list.key.purpose listId := by
  constructor
  · intro hmatc rest hrest u hu
    by_contra hne
    obtain ⟨before, m, formattedList, htr, hrun, hend, hshows⟩ :=
      hrest.shows hmarks h hlist hkind hstart hpublished
    obtain ⟨between, after, rfl⟩ := append_of_mem hu
    obtain ⟨index, view, view', hviews, hold, hnew⟩ := hmarks.views_of_change h hstart htr hrun hne
    have hshown := hmatc _ kind hend hkind _ hnew
    exact hviews (Option.some.inj ((hshows _ hold).symm.trans hshown))
  · intro hkept list' kind' hlist' hkind' view hview
    obtain ⟨rest, hrest⟩ := exists_sinceShown hmarks h hlist hkind
    obtain ⟨before, m, formattedList, -, hrun, hend, hshows⟩ :=
      hrest.shows hmarks h hlist hkind hstart hpublished
    obtain rfl := mem_unique hlist' hend
    obtain rfl := mem_unique hkind' hkind
    refine hshows view ?_
    have hsame : c.shared.views kind' list.key.purpose listId =
        m.shared.views kind' list.key.purpose listId :=
      hrun.preserves (P := fun c => c.shared.views kind' list.key.purpose listId =
        m.shared.views kind' list.key.purpose listId)
        (fun t ht _ hsrc => (hkept rest hrest t ht).symm.trans hsrc) rfl
    rwa [hsame] at hview

/-! ### Two marks -/

variable (env db i) {mark : Mark} (status : Nat → Interleaving.Status Call) {formattedList : Str}

/-- A call marks its credential and reads the entries, without any other call in between. -/
lemma exists_run_marking (hreq : Call.IsRequest env (.mark (.find mark)))
    (hget : db.getRevocationByIssuerIdentifierId mark.key = some listId) (hidle : status i = .idle)
    (hfmt : env.formatEntries mark.kind mark.key listId ((db.updateEntry (.credential mark.credentialId)
      mark.newState.toEntryStatus).getEntries listId) = .ok formattedList) :
    ∃ tr, Run (Step env) ⟨db, status⟩ tr
        ⟨db.updateEntry (.credential mark.credentialId) mark.newState.toEntryStatus,
          update status i (.running (.mark (.publish mark listId formattedList)))⟩ ∧
      ∀ t ∈ tr, ∀ j call, t.label = .begins j call → j = i ∧ call = .mark (.find mark) := by
  have hfind : Next env db (.mark (.find mark)) (.works, .found listId) db
      (some (.mark (.update mark listId))) := by
    simp [Next, advance, markStep, unlessRefused, hget]
  have hupd : Next env db (.mark (.update mark listId)) (.works, .updated (.credential mark.credentialId)
      mark.newState.toEntryStatus) (db.updateEntry (.credential mark.credentialId)
        mark.newState.toEntryStatus) (some (.mark (.read mark listId))) := rfl
  generalize db.updateEntry (.credential mark.credentialId) mark.newState.toEntryStatus = db' at *
  have hread : Next env db' (.mark (.read mark listId)) (.works, .entriesRead listId) db'
      (some (.mark (.publish mark listId formattedList))) := by
    simp [Next, advance, markStep, unlessRefused, hfmt]
  have hrun : Run (Step env) ⟨db, status⟩ _ ⟨db', _⟩ :=
    .cons (.begins hidle hreq) (.cons (.steps (update_self ..) hfind)
      (.cons (.steps (update_self ..) hupd) (.cons (.steps (update_self ..) hread) (.refl _))))
  simp only [update_idem] at hrun
  exact ⟨_, hrun, by simp⟩

lemma exists_run_publishing (hlist : listId < db.lists.length)
    (hrng : status i = .running (.mark (.publish mark listId formattedList))) :
    ∃ t, Run (Step env) ⟨db, status⟩ [t]
        ⟨{ db with lists := db.lists.modify listId fun list => { list with formattedList } },
          update status i .returned⟩ ∧ Publishes i listId t := by
  have hpub : Next env db (.mark (.publish mark listId formattedList)) (.works, .published listId)
      { db with lists := db.lists.modify listId fun list => { list with formattedList } } none := by
    simp [Next, advance, markStep, unlessRefused, updateFormattedList, hlist]
  exact ⟨_, .cons (.steps hrng hpub) (.refl _), .works, rfl⟩

def sampleDatabase : Database :=
  ⟨[⟨sampleRequest.key, []⟩],
    [⟨0, some 0, .credential "a", .active⟩, ⟨0, some 1, .credential "b", .active⟩], fun _ => none⟩

def sampleMark (credentialId : String) : Mark :=
  ⟨credentialId, .tokenStatusList, sampleRequest.key, .revoked⟩

lemma isRequest_sampleMark (credentialId : String) :
    Call.IsRequest .sample (.mark (.find (sampleMark credentialId))) :=
  ⟨rfl, ⟨"issuer", .did, none, none, some "TOKENSTATUSLIST", true, .accepted, none, none⟩, rfl⟩

lemma allocated_sampleDatabase : sampleDatabase.Allocated := by
  refine ⟨fun listId => ?_, by decide⟩
  by_cases hlist : listId = 0
  · subst hlist
    rfl
  · simp [sampleDatabase, rowsOf, Ne.symm hlist]

/-- The call 0 marks the credential "a", and the call 1 marks "b". -/
lemma marksDifferent_of_begins (h : ∀ t ∈ tr, ∀ j call, t.label = .begins j call →
      j = 0 ∧ call = .mark (.find (sampleMark "a")) ∨ j = 1 ∧ call = .mark (.find (sampleMark "b"))) :
    MarksDifferent tr := by
  refine ⟨fun t ht j call hlab => ?_, fun t ht u hu j k mark mark' hlab hlab' hsame => ?_⟩
  · rcases h t ht j call hlab with ⟨-, rfl⟩ | ⟨-, rfl⟩
    · exact ⟨_, rfl⟩
    · exact ⟨_, rfl⟩
  · rcases h t ht j _ hlab with ⟨rfl, ⟨⟩⟩ | ⟨rfl, ⟨⟩⟩
    · rcases h u hu k _ hlab' with ⟨rfl, -⟩ | ⟨-, ⟨⟩⟩
      · rfl
      · exact absurd hsame (by decide)
    · rcases h u hu k _ hlab' with ⟨-, ⟨⟩⟩ | ⟨rfl, -⟩
      · exact absurd hsame (by decide)
      · rfl

/-- The first call reads the entries before the second one marks its credential, and publishes after it.
The revocation of the second credential is missing from the list when both calls have returned. -/
theorem second_revocation_lost :
    ∃ tr c, Run (Step .sample) ⟨sampleDatabase, fun _ => .idle⟩ tr c ∧ MarksDifferent tr ∧
      (∃ t ∈ tr, ∃ i, Publishes i 0 t) ∧ c.status 0 = .returned ∧ c.status 1 = .returned ∧
      c.shared.statesOf 0 = [(0, .revoked), (1, .revoked)] ∧
      (∃ list, c.shared.lists[0]? = some list ∧
        readStatus .sample .tokenStatusList list.formattedList 1 = some (.inl .valid)) ∧
      ¬PublishedMatches .sample c.shared 0 := by
  let first := sampleDatabase.updateEntry (.credential "a") .revoked
  let second := first.updateEntry (.credential "b") .revoked
  have hfst : first.Allocated :=
    allocated_sampleDatabase.of_places (sampleDatabase.places_updateEntry _ _) rfl
  have hsecond : second.Allocated := hfst.of_places (first.places_updateEntry _ _) rfl
  obtain ⟨list, hfmt⟩ := exists_formatEntries hfst (by decide) sampleRequest.key 0
  obtain ⟨list', hfmt'⟩ := exists_formatEntries hsecond (by decide) sampleRequest.key 0
  obtain ⟨tr, hrun, hbeg⟩ := exists_run_marking .sample _ 0 (fun _ => .idle) (isRequest_sampleMark "a")
    rfl rfl hfmt
  let waiting : Interleaving.Status Call := .running (.mark (.publish (sampleMark "a") 0 list))
  let waiting' : Interleaving.Status Call := .running (.mark (.publish (sampleMark "b") 0 list'))
  obtain ⟨tr', hrun', hbeg'⟩ := exists_run_marking .sample first 1 (update (fun _ => .idle) 0 waiting)
    (isRequest_sampleMark "b") rfl rfl hfmt'
  obtain ⟨p', hpub', _, hp'⟩ := exists_run_publishing .sample second 1
    (update (update (fun _ => .idle) 0 waiting) 1 waiting') Nat.zero_lt_one rfl
  obtain ⟨p, hpub, answer, hp⟩ := exists_run_publishing .sample
    { second with lists := [⟨sampleRequest.key, list'⟩] } 0
    (update (update (update (fun _ => .idle) 0 waiting) 1 waiting') 1 .returned) Nat.zero_lt_one rfl
  have hshown : readStatus .sample .tokenStatusList list 1 = some (.inl .valid) :=
    readStatus_of_formatEntries hfst hfmt (1, .inl .valid) (mem_views.2 ⟨1, _, rfl, rfl, rfl, rfl⟩)
  refine ⟨_, _, ((hrun.append hrun').append hpub').append hpub, ?_, ⟨p, by simp, 0, answer, hp⟩, rfl, rfl,
    rfl, ⟨⟨sampleRequest.key, list⟩, rfl, hshown⟩, fun hmatc => ?_⟩
  · refine marksDifferent_of_begins fun t ht j call hlab => ?_
    simp only [mem_append, mem_singleton] at ht
    rcases ht with ((ht | ht) | rfl) | rfl
    · exact .inl (hbeg t ht j call hlab)
    · exact .inr (hbeg' t ht j call hlab)
    · cases hlab.symm.trans hp'
    · cases hlab.symm.trans hp
  · have hrvd := hmatc ⟨sampleRequest.key, list⟩ .tokenStatusList rfl rfl (1, .inl .revoked)
      (mem_views.2 ⟨1, _, rfl, rfl, rfl, rfl⟩)
    cases hshown.symm.trans hrvd

/-- A call alone publishes what it has marked. -/
theorem one_revocation_published :
    ∃ tr c, Run (Step .sample) ⟨sampleDatabase, fun _ => .idle⟩ tr c ∧
      c.shared.statesOf 0 = [(0, .revoked), (1, .active)] ∧ PublishedMatches .sample c.shared 0 ∧
      ∀ rest, SinceShown 0 tr rest → ∀ u ∈ rest,
        u.src.shared.views .tokenStatusList .revocationAndSuspension 0 =
          u.dst.shared.views .tokenStatusList .revocationAndSuspension 0 := by
  have hfst : (sampleDatabase.updateEntry (.credential "a") .revoked).Allocated :=
    allocated_sampleDatabase.of_places (sampleDatabase.places_updateEntry _ _) rfl
  obtain ⟨list, hfmt⟩ := exists_formatEntries hfst (by decide) sampleRequest.key 0
  obtain ⟨tr, hrun, hbeg⟩ := exists_run_marking .sample _ 0 (fun _ => .idle) (isRequest_sampleMark "a")
    rfl rfl hfmt
  obtain ⟨p, hpub, answer, hp⟩ := exists_run_publishing .sample
    (sampleDatabase.updateEntry (.credential "a") .revoked) 0 (update (fun _ => .idle) 0
      (.running (.mark (.publish (sampleMark "a") 0 list)))) Nat.zero_lt_one rfl
  have hmarks : MarksDifferent (tr ++ [p]) := by
    refine marksDifferent_of_begins fun t ht j call hlab => ?_
    rcases mem_append.1 ht with ht | ht
    · exact .inl (hbeg t ht j call hlab)
    · cases hlab.symm.trans (mem_singleton.1 ht ▸ hp)
  have hmatc := readStatus_of_formatEntries hfst hfmt
  refine ⟨_, _, hrun.append hpub, rfl, ?_, ?_⟩
  · rintro _ _ ⟨⟩ ⟨⟩
    exact hmatc
  · refine (publishedMatches_iff allocated_sampleDatabase (hrun.append hpub) hmarks rfl rfl
      (.inr ⟨p, by simp, 0, answer, hp⟩)).1 ?_
    rintro _ _ ⟨⟩ ⟨⟩
    exact hmatc

end OneCore.Revocation
