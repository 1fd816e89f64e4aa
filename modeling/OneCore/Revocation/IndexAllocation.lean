/-
# The indices of the entries

The index of a new entry is one more than the largest that is used in the list.  It is read and taken in one
transaction, so the entries of a list have the indices `0`, `1` and so on in the order in which they were
added, and no index is given twice, whichever calls run at the same time.

A list of n entries is encoded with room for at least n of them, hence each entry has a slot.  In a bitstring
this is a bit of the list.  In a token the slots of a byte are filled from its end, and if the last byte is
not full then the first of its slots are at bits that are not allocated.
-/
import OneCore.Revocation.System

namespace OneCore.Revocation

open List Database Environment

/-! ### Places of the entries -/

lemma max?_range_succ (n : Nat) : (range (n + 1)).max? = some n := by
  refine max?_eq_some_iff.2 ⟨self_mem_range_succ, fun i hi => ?_⟩
  exact Nat.le_of_lt_succ (mem_range.1 hi)

/-- What stays of an entry: the list, the index and the entity. -/
def EntryRow.place (row : EntryRow) : Nat × Option Nat × RevocationListEntityId :=
  (row.revocationListId, row.index, row.entity)

namespace Database

def places (db : Database) : List (Nat × Option Nat × RevocationListEntityId) :=
  db.entries.map EntryRow.place

/-- The entries of each list have the indices from zero on, and each entry is in a list. -/
structure Allocated (db : Database) : Prop where
  indices : ∀ listId, (db.rowsOf listId).map EntryRow.index =
    (range (db.rowsOf listId).length).map some
  lists : ∀ row ∈ db.entries, row.revocationListId < db.lists.length

variable {db db' : Database} {listId : Nat}

lemma map_index_rowsOf : (db.rowsOf listId).map EntryRow.index =
    (db.places.filter fun place => place.1 = listId).map fun place => place.2.1 := by
  rw [places, filter_map, map_map]
  rfl

lemma length_rowsOf : (db.rowsOf listId).length =
    (db.places.filter fun place => place.1 = listId).length := by
  rw [places, filter_map, length_map]
  rfl

lemma places_updateEntry (db : Database) (id : UpdateRevocationListEntryId)
    (status : RevocationListEntryStatus) : (db.updateEntry id status).places = db.places := by
  refine ext_getElem? fun entryId => ?_
  rw [places, places, updateEntry, getElem?_map, getElem?_map, getElem?_mapIdx, Option.map_map]
  refine congrArg (Option.map · db.entries[entryId]?) (funext fun row => ?_)
  rw [Function.comp_apply]
  split
  · rfl
  · rfl

lemma Allocated.of_places (h : db.Allocated) (hpls : db'.places = db.places)
    (hlists : db'.lists.length = db.lists.length) : db'.Allocated := by
  refine ⟨fun listId => ?_, fun row hrow => ?_⟩
  · rw [map_index_rowsOf, length_rowsOf, hpls, ← map_index_rowsOf, ← length_rowsOf]
    exact h.indices listId
  · have hplace : row.place ∈ db.places := hpls ▸ mem_map_of_mem hrow
    obtain ⟨row', hrow', heq⟩ := mem_map.1 hplace
    have hlist : row'.revocationListId = row.revocationListId := congrArg Prod.fst heq
    rw [hlists, ← hlist]
    exact h.lists row' hrow'

lemma Allocated.indicesOf (h : db.Allocated) (listId : Nat) :
    db.indicesOf listId = range (db.rowsOf listId).length := by
  have hindi := congrArg (filterMap id) (h.indices listId)
  rw [filterMap_map, filterMap_map] at hindi
  rw [Database.indicesOf, show EntryRow.index = id ∘ EntryRow.index from rfl, hindi]
  exact filterMap_some

lemma rowsOf_append (row : EntryRow) (lists : List RevocationList)
    (credentials : String → Option Credential) :
    (mk lists (db.entries ++ [row]) credentials).rowsOf listId =
      db.rowsOf listId ++ if row.revocationListId = listId then [row] else [] := by
  simp [rowsOf, filter_cons]

variable {index : Nat}

lemma Allocated.nextFreeIndex (h : db.Allocated)
    (hidx : db.nextFreeIndex listId = .ok index) : index = (db.rowsOf listId).length := by
  rw [Database.nextFreeIndex, h.indicesOf] at hidx
  generalize (db.rowsOf listId).length = n at hidx
  cases n with
  | zero =>
    simp only [range_zero, max?_nil] at hidx
    split at hidx
    · exact (Except.ok.inj hidx).symm
    · cases hidx
  | succ n =>
    rw [max?_range_succ] at hidx
    exact (Except.ok.inj hidx).symm

lemma Allocated.append (h : db.Allocated) {lists : List RevocationList}
    {entity : RevocationListEntityId} {status : RevocationListEntryStatus}
    {credentials : String → Option Credential} (hlists : db.lists.length ≤ lists.length)
    (hlist : listId < lists.length) (hidx : index = (db.rowsOf listId).length) :
    (Database.mk lists (db.entries ++ [⟨listId, some index, entity, status⟩]) credentials).Allocated := by
  subst hidx
  refine ⟨fun listId' => ?_, fun row hrow => ?_⟩
  · rw [rowsOf_append]
    by_cases heq : listId = listId'
    · subst heq
      rw [if_pos rfl, map_append, h.indices listId, length_append, length_singleton,
        range_succ, map_append]
      rfl
    · rw [if_neg heq, append_nil]
      exact h.indices listId'
  · rcases mem_append.1 hrow with hrow | hrow
    · exact (h.lists row hrow).trans_le hlists
    · obtain rfl := mem_singleton.1 hrow
      exact hlist

end Database

/-! ### Steps and runs -/

/-- The index that is given to an entity in a step. -/
def Event.issuedIndex : Event → Option (Nat × Nat)
  | .started listId => some (listId, 0)
  | .added listId index => some (listId, index)
  | _ => none

def issuedIndex (t : Transition Configuration CallLabel) : Option (Nat × Nat) :=
  match t.label with
  | .steps _ (_, event) => event.issuedIndex
  | .begins _ _ => none

variable {env : Environment} {db db' : Database} {listId : Nat} {event : Event}

lemma Database.Allocated.rowsOf_fresh (h : db.Allocated) : db.rowsOf db.lists.length = [] := by
  refine filter_eq_nil_iff.2 fun row hrow heq => ?_
  exact (h.lists row hrow).ne (of_decide_eq_true heq)

lemma Effect.allocated (h : Effect db event db') (hdb : db.Allocated) : db'.Allocated := by
  cases h with
  | unchanged => exact hdb
  | started hfr =>
    refine hdb.append ?_ ?_ (congrArg length hdb.rowsOf_fresh).symm
    · simp
    · simp
  | added hlist hidx => exact hdb.append le_rfl hlist (hdb.nextFreeIndex hidx)
  | updated => exact hdb.of_places (Database.places_updateEntry _ _ _) rfl
  | published => exact hdb.of_places rfl (length_modify _ _ _)
  | stateWritten => exact hdb.of_places rfl rfl

lemma Effect.grows (h : Effect db event db') : db.places <+: db'.places := by
  cases h with
  | unchanged => exact prefix_rfl
  | started => exact IsPrefix.map _ (prefix_append _ _)
  | added => exact IsPrefix.map _ (prefix_append _ _)
  | updated => rw [places_updateEntry]
  | published => exact prefix_rfl
  | stateWritten => exact prefix_rfl

lemma length_rowsOf_le_of_grows (h : db.places <+: db'.places) (listId : Nat) :
    (db.rowsOf listId).length ≤ (db'.rowsOf listId).length := by
  rw [length_rowsOf, length_rowsOf]
  exact (h.filter _).length_le

/-- The index that is given to an entity is the first that has not been given. -/
lemma Effect.issued (h : Effect db event db') (hdb : db.Allocated)
    (hiss : event.issuedIndex = some (listId, index)) :
    (db.rowsOf listId).length = index ∧ (db'.rowsOf listId).length = index + 1 := by
  cases h with
  | unchanged hreads => cases event <;> cases hiss <;> cases hreads
  | started =>
    cases hiss
    rw [rowsOf_append, if_pos rfl, hdb.rowsOf_fresh]
    exact ⟨rfl, rfl⟩
  | added hlist hidx =>
    cases hiss
    rw [rowsOf_append, if_pos rfl, length_append, hdb.nextFreeIndex hidx]
    exact ⟨rfl, rfl⟩
  | updated => cases hiss
  | published => cases hiss
  | stateWritten => cases hiss

section Run

variable {c c' : Configuration} {t : CallTransition}
  {tr : List CallTransition}

section

variable (h : Step env t.src t.label t.dst)

include h

lemma Step.allocated (hsrc : t.src.shared.Allocated) : t.dst.shared.Allocated := by
  rcases h.effect with ⟨_, _, -, hshared⟩ | ⟨_, _, _, -, heff⟩
  · exact hshared ▸ hsrc
  · exact heff.allocated hsrc

lemma Step.grows : t.src.shared.places <+: t.dst.shared.places := by
  rcases h.effect with ⟨_, _, -, hshared⟩ | ⟨_, _, _, -, heff⟩
  · rw [hshared]
  · exact heff.grows

lemma Step.issued (hsrc : t.src.shared.Allocated) (hiss : issuedIndex t = some (listId, index)) :
    (t.src.shared.rowsOf listId).length = index ∧ (t.dst.shared.rowsOf listId).length = index + 1 := by
  rcases h.effect with ⟨_, _, hlab, -⟩ | ⟨_, _, _, hlab, heff⟩
  · rw [issuedIndex, hlab] at hiss
    cases hiss
  · rw [issuedIndex, hlab] at hiss
    exact heff.issued hsrc hiss

end

variable (h : Run (Step env) c tr c')

include h

lemma allocated_of_run (hc : c.shared.Allocated) : c'.shared.Allocated :=
  h.preserves (P := fun c => c.shared.Allocated) (fun _ _ hstep => hstep.allocated) hc

lemma grows_of_run : c.shared.places <+: c'.shared.places :=
  h.preserves (P := fun c' => c.shared.places <+: c'.shared.places)
    (fun _ _ hstep hsrc => hsrc.trans hstep.grows) prefix_rfl

lemma pairwise_issuedIndex (hc : c.shared.Allocated) :
    tr.Pairwise fun t u => ∀ place, issuedIndex t = some place → issuedIndex u ≠ some place := by
  refine pairwise_of_forall_before fun pre u hpre t ht => ?_
  rintro ⟨listId, index⟩ hfst hagain
  obtain ⟨hrun, hu⟩ := h.of_append_singleton hpre
  obtain ⟨_, _, -, hbef, ht, hbtw⟩ := hrun.split_of_mem ht
  have hgiven := (ht.issued (allocated_of_run hbef hc) hfst).2
  have hnext := (hu.issued (allocated_of_run hrun hc) hagain).1
  have hle := length_rowsOf_le_of_grows (grows_of_run hbtw) listId
  omega

end Run

/-! ### The lists that are made of the entries -/

/-- The indices and the statuses of the entries of a list. -/
def Database.statesOf (db : Database) (listId : Nat) : List (Nat × RevocationListEntryStatus) :=
  (db.rowsOf listId).filterMap fun row => row.index.map fun index => (index, row.status)

section States

lemma indexStates_of_rows {rows : List EntryRow} (h : ∀ row ∈ rows, row.index ≠ none) :
    indexStates (rows.map fun row => ⟨row.index, row.status⟩) =
      .ok (rows.filterMap fun row => row.index.map fun index => (index, row.status)) := by
  induction rows with
  | nil => rfl
  | cons row rows ih =>
    have hrest := ih fun row' hrow' => h row' (mem_cons_of_mem _ hrow')
    obtain ⟨index, hidx⟩ := Option.ne_none_iff_exists'.1 (h row mem_cons_self)
    unfold indexStates at hrest ⊢
    rw [map_cons, mapM_cons, hrest, filterMap_cons, hidx]
    rfl

lemma purposeStates_of_indexStates {entries : List RevocationListEntry}
    {states : List (Nat × RevocationListEntryStatus)} (purpose : RevocationListPurpose)
    (h : indexStates entries = .ok states) :
    purposeStates purpose entries =
      .ok (states.map fun state => (state.1, getRevocationEntryState state.2 purpose)) := by
  induction entries generalizing states with
  | nil =>
    cases h
    rfl
  | cons entry entries ih =>
    simp only [indexStates, mapM_cons, ok_iffs] at h
    obtain ⟨_, ⟨index, hidx, rfl⟩, states', hsts, rfl⟩ := h
    have hrest := ih hsts
    unfold purposeStates at hrest ⊢
    rw [mapM_cons, hrest, hidx]
    rfl

variable (h : db.Allocated)

include h

lemma Database.Allocated.index_ne_none : ∀ row ∈ db.rowsOf listId, row.index ≠ none := by
  intro row hrow hnone
  have hmem : row.index ∈ (range (db.rowsOf listId).length).map some :=
    h.indices listId ▸ mem_map_of_mem hrow
  rw [hnone] at hmem
  obtain ⟨_, -, hsome⟩ := mem_map.1 hmem
  cases hsome

lemma Database.Allocated.indexStates_getEntries :
    indexStates (db.getEntries listId) = .ok (db.statesOf listId) :=
  indexStates_of_rows h.index_ne_none

lemma Database.Allocated.map_fst_statesOf :
    (db.statesOf listId).map Prod.fst = range (db.rowsOf listId).length := by
  rw [← h.indicesOf, Database.statesOf, map_filterMap]
  refine filterMap_congr fun row _ => ?_
  rw [Option.map_map]
  exact Option.map_id'

lemma Database.Allocated.length_statesOf :
    (db.statesOf listId).length = (db.rowsOf listId).length := by
  rw [← length_map Prod.fst, h.map_fst_statesOf, length_range]

lemma Database.Allocated.index_lt :
    ∀ state ∈ db.statesOf listId, state.1 < (db.statesOf listId).length := by
  intro state hst
  have hmem : state.1 ∈ range (db.rowsOf listId).length :=
    h.map_fst_statesOf ▸ mem_map_of_mem hst
  rw [h.length_statesOf]
  exact mem_range.1 hmem

end States

/-- No list that is made of the entries has a bit set that is not allocated. -/
def GeneratesInside (env : Environment) (db : Database) : Prop :=
  ∀ listId list kind, db.lists[listId]? = some list → env.kind list.key.type = some kind →
    ∀ message, env.encode kind list.key.purpose (db.getEntries listId) ≠ .error (.panic message)

/-- In the last byte of a token that is not full, no entry is marked in a slot that is not allocated. -/
def TokenMarksAllocated (env : Environment) (db : Database) : Prop :=
  ∀ listId list, db.lists[listId]? = some list → env.kind list.key.type = some .tokenStatusList →
    MarksAllocated preferredEntrySize (max (db.statesOf listId).length 131072) (db.statesOf listId)

lemma tokenCapacity_preferredEntrySize (n : Nat) : tokenCapacity n preferredEntrySize = max n 131072 := by
  unfold tokenCapacity calculatePreferredTokenSize preferredEntrySize
  omega

lemma suspensionFits_preferredEntrySize (states : List (Nat × RevocationListEntryStatus)) :
    SuspensionFits preferredEntrySize states :=
  fun _ _ _ => le_rfl

lemma exists_generateToken_statesOf_iff (lib : TokenLibrary) (h : db.Allocated) :
    (∃ token, generateToken lib (db.statesOf listId) preferredEntrySize
        (calculatePreferredTokenSize (db.statesOf listId).length preferredEntrySize) = .ok token) ↔
      MarksAllocated preferredEntrySize (max (db.statesOf listId).length 131072) (db.statesOf listId) := by
  have hwidth : IsWidth preferredEntrySize := by decide
  have hsusp := suspensionFits_preferredEntrySize (db.statesOf listId)
  rw [exists_generateToken_iff hsusp lib, calculatePreferredTokenSize_eq hwidth,
    tokenCapacity_preferredEntrySize]
  refine forall_markedBit_lt_iff hwidth hsusp fun state hst => ?_
  exact (h.index_lt state hst).trans_le (Nat.le_max_left _ _)

section Encode

variable (env : Environment) (purpose : RevocationListPurpose) (h : db.Allocated)
include h

lemma encode_token :
    env.encode .tokenStatusList purpose (db.getEntries listId) =
      (generateToken env.token (db.statesOf listId) preferredEntrySize
        (calculatePreferredTokenSize (db.statesOf listId).length preferredEntrySize)).mapError
        (Fault.map (.token ∘ .token)) := by
  rw [encode, generateTokenFromEntries, h.indexStates_getEntries, Except.mapError_ok,
    Except.ok_bind]
  dsimp only
  cases generateToken env.token (db.statesOf listId) preferredEntrySize
      (calculatePreferredTokenSize (db.statesOf listId).length preferredEntrySize) with
  | ok token => rfl
  | error e =>
    cases e with
    | error e => rfl
    | panic message => rfl

lemma encode_token_ne_panic_iff :
    (∀ message, env.encode .tokenStatusList purpose (db.getEntries listId) ≠ .error (.panic message)) ↔
      MarksAllocated preferredEntrySize (max (db.statesOf listId).length 131072) (db.statesOf listId) := by
  rw [← exists_generateToken_statesOf_iff env.token h, encode_token env purpose h]
  constructor
  · intro hinside
    refine (exists_generateToken_or_panic (suspensionFits_preferredEntrySize _) env.token).resolve_right ?_
    rintro ⟨message, hpanic⟩
    refine hinside message ?_
    rw [hpanic]
    rfl
  · rintro ⟨token, htok⟩ message hpanic
    rw [htok] at hpanic
    cases hpanic

lemma exists_encode_bitstring :
    ∃ encodedList, env.encode .bitstringStatusList purpose (db.getEntries listId) = .ok encodedList := by
  have hinde : indexStates (db.getEntries listId) = .ok (db.statesOf listId) :=
    h.indexStates_getEntries
  have hsts := purposeStates_of_indexStates purpose hinde
  have hidx : ∀ entry ∈ (db.statesOf listId).map fun state =>
      (state.1, getRevocationEntryState state.2 purpose),
      entry.1 < calculateBitstringSize ((db.statesOf listId).map fun state =>
        (state.1, getRevocationEntryState state.2 purpose)).length := by
    intro entry hent
    obtain ⟨state, hst, rfl⟩ := mem_map.1 hent
    rw [length_map]
    exact (h.index_lt state hst).trans_le (Nat.le_max_left _ _)
  obtain ⟨encodedList, hencd⟩ := exists_generateBitstring env.bitstring hidx
  refine ⟨encodedList, ?_⟩
  rw [encode, generateBitstringFromEntries, hsts, Except.mapError_ok, Except.ok_bind, hencd]
  rfl

end Encode

lemma generatesInside_iff (h : db.Allocated) : GeneratesInside env db ↔ TokenMarksAllocated env db := by
  constructor
  · intro hinside listId list hlist hkind
    exact (encode_token_ne_panic_iff env _ h).1 (hinside listId list _ hlist hkind)
  · intro hmarks listId list kind hlist hkind
    cases kind with
    | tokenStatusList => exact (encode_token_ne_panic_iff env _ h).2 (hmarks listId list hlist hkind)
    | bitstringStatusList =>
      obtain ⟨encodedList, hencd⟩ := exists_encode_bitstring env list.key.purpose h
      intro message hpanic
      cases hencd.symm.trans hpanic

lemma marksAllocated_of_length_le (h : db.Allocated) (hlen : db.entries.length ≤ 131072) :
    MarksAllocated preferredEntrySize (max (db.statesOf listId).length 131072) (db.statesOf listId) := by
  intro state hst hlast
  have hle : (db.rowsOf listId).length ≤ db.entries.length := length_filter_le _ _
  have hlt := h.index_lt state hst
  rw [h.length_statesOf] at hlast hlt
  unfold preferredEntrySize at hlast
  omega

/-! ### The indices in a run -/

def moments (start : Database) (tr : List (Transition Configuration CallLabel)) : List Database :=
  start :: tr.map fun t => t.dst.shared

variable {tr : List CallTransition} {c c' : Configuration}

lemma mem_moments_of_run (h : Run (Step env) c tr c') :
    c'.shared ∈ moments c.shared tr := by
  induction h with
  | refl c => exact mem_cons_self
  | cons _ _ ih => exact mem_cons_of_mem _ ih

lemma allocated_of_mem_moments (hc : c.shared.Allocated)
    (h : Run (Step env) c tr c')
    (hdb : db ∈ moments c.shared tr) : db.Allocated := by
  rcases mem_cons.1 hdb with rfl | hdb
  · exact hc
  obtain ⟨t, ht, rfl⟩ := mem_map.1 hdb
  obtain ⟨_, _, -, hbef, hstep, -⟩ := h.split_of_mem ht
  exact hstep.allocated (allocated_of_run hbef hc)

/-- At every moment the indices of each list are those from zero on, an entity keeps its index, no index is
given twice, and the lists can be encoded. -/
structure AllocationSafe (env : Environment) (start : Database)
    (tr : List (Transition Configuration CallLabel)) : Prop where
  allocated : ∀ db ∈ moments start tr, db.Allocated
  kept : ∀ t ∈ tr, t.src.shared.places <+: t.dst.shared.places
  once : tr.Pairwise fun t u => ∀ place, issuedIndex t = some place → issuedIndex u ≠ some place
  inside : ∀ db ∈ moments start tr, GeneratesInside env db

/-- However many calls run at the same time, whatever they are and whichever steps fail, the indices are
given as they should be.  The lists can then be encoded at every moment exactly if no entry of a token is marked in
a slot that is not allocated. -/
theorem allocationSafe_iff {env : Environment} {start : Database} (hstart : start.Allocated)
    {tr : List (Transition Configuration CallLabel)} {c : Configuration}
    (h : Run (Step env) ⟨start, fun _ => .idle⟩ tr c) :
    AllocationSafe env start tr ↔ ∀ db ∈ moments start tr, TokenMarksAllocated env db := by
  have halc : ∀ db ∈ moments start tr, db.Allocated :=
    fun db hdb => allocated_of_mem_moments hstart h hdb
  constructor
  · intro hsafe db hdb
    exact (generatesInside_iff (halc db hdb)).1 (hsafe.inside db hdb)
  · intro hmarks
    refine ⟨halc, fun t ht => (h.step_of_mem ht).grows, pairwise_issuedIndex h hstart, ?_⟩
    intro db hdb
    exact (generatesInside_iff (halc db hdb)).2 (hmarks db hdb)

/-! ### A list with a last byte that is not full -/

def issuedDatabase (request : IssueRequest) (formattedList : Str) (n : Nat) : Database where
  lists := [⟨request.key, formattedList⟩]
  entries := (range n).map fun index => ⟨0, some index, request.entity, .active⟩
  credentials := fun _ => none

section Issuing

variable {request : IssueRequest} {formattedList : Str} {n : Nat}

lemma rowsOf_issuedDatabase : (issuedDatabase request formattedList n).rowsOf 0 =
    (issuedDatabase request formattedList n).entries := by
  refine filter_eq_self.2 fun row hrow => ?_
  obtain ⟨_, -, rfl⟩ := mem_map.1 hrow
  rfl

lemma indicesOf_issuedDatabase :
    (issuedDatabase request formattedList n).indicesOf 0 = range n := by
  rw [indicesOf, rowsOf_issuedDatabase, issuedDatabase, filterMap_map]
  exact filterMap_some

section

variable (hety : ∀ i, correctParameters request.entity (some i) = true)

include hety

lemma startNewListForEntity_empty
    (hfmt : env.formatEntries request.kind request.key 0 [] = .ok formattedList) :
    startNewListForEntity env ⟨[], [], fun _ => none⟩ request =
      .ok (0, issuedDatabase request formattedList 1) := by
  have hfr : ¬∃ list' ∈ ([] : List RevocationList), list'.key = request.key := by simp
  have hcr : createEntry ⟨[⟨request.key, formattedList⟩], [], fun _ => none⟩ 0
      request.entity (some 0) = .ok (0, issuedDatabase request formattedList 1) := by
    refine createEntry_eq_ok_iff.2 ⟨hety 0, Nat.zero_lt_one, ?_, rfl, rfl⟩
    intro i _ hmem
    cases hmem
  simp only [startNewListForEntity, length_nil, hfmt, Except.ok_bind,
    createRevocationList, if_neg hfr, Except.mapError_ok, nil_append, hcr]
  rfl

/-- Every other call adds one entry. -/
lemma addEntityToList_issuedDatabase
    (n : Nat) : addEntityToList (issuedDatabase request formattedList (n + 1)) 0 request.entity =
      .ok (n + 1, issuedDatabase request formattedList (n + 2)) := by
  have hnext : (issuedDatabase request formattedList (n + 1)).nextFreeIndex 0 = .ok (n + 1) := by
    rw [nextFreeIndex, indicesOf_issuedDatabase, max?_range_succ]
  have hcr : (issuedDatabase request formattedList (n + 1)).createEntry 0 request.entity
      (some (n + 1)) = .ok (n + 1, issuedDatabase request formattedList (n + 2)) := by
    refine createEntry_eq_ok_iff.2 ⟨hety _, Nat.zero_lt_one, ?_, ?_, ?_⟩
    · rintro i ⟨⟩ hmem
      rw [indicesOf_issuedDatabase] at hmem
      exact absurd (mem_range.1 hmem) (lt_irrefl _)
    · rw [issuedDatabase, length_map, length_range]
    · simp [issuedDatabase, range_succ]
  simp only [addEntityToList, hnext, Except.ok_bind, hcr]
  rfl

lemma completes_issue (n : Nat) :
    Interleaving.Completes (Next env) (issuedDatabase request formattedList (n + 1))
      (.issue (.find request)) (.works, .added 0 (n + 1))
      (issuedDatabase request formattedList (n + 2)) := by
  have hget : (issuedDatabase request formattedList (n + 1)).getRevocationByIssuerIdentifierId request.key =
      some 0 := by
    simp [getRevocationByIssuerIdentifierId, issuedDatabase]
  have hfind : Next env (issuedDatabase request formattedList (n + 1)) (.issue (.find request))
      (.works, .found 0) (issuedDatabase request formattedList (n + 1))
      (some (.issue (.add request 0 0))) := by
    simp [Next, advance, issueStep, hget]
  refine .more hfind (.last ?_)
  simp [Next, advance, issueStep, addEntityToList_issuedDatabase hety]

end

/-- Any number of calls, one after the other, fill a list. -/
lemma exists_run_issuing (hkind : env.kind request.key.type = some request.kind)
    (hety : ∀ i, correctParameters request.entity (some i) = true)
    (hfmt : env.formatEntries request.kind request.key 0 [] = .ok formattedList) (n : Nat) :
    ∃ tr c, Run (Step env) ⟨⟨[], [], fun _ => none⟩, fun _ => .idle⟩ tr c ∧
      c.shared = issuedDatabase request formattedList (n + 1) ∧ ∀ i, n < i → c.status i = .idle := by
  induction n with
  | zero =>
    have hget : getRevocationByIssuerIdentifierId ⟨[], [], fun _ => none⟩ request.key = none := rfl
    have hstart : Interleaving.Completes (Next env) ⟨[], [], fun _ => none⟩ (.issue (.find request))
        (.works, .started 0) (issuedDatabase request formattedList 1) := by
      refine .last ?_
      simp [Next, advance, issueStep, hget, startNewListForEntity_empty hety hfmt]
    obtain ⟨tr, hrun⟩ : ∃ tr, Run (Step env) ⟨_, fun _ => .idle⟩ tr _ :=
      hstart.exists_run (i := 0) hkind rfl
    refine ⟨tr, _, hrun, rfl, fun i hi => ?_⟩
    have hidle := Function.update_of_ne hi.ne' Interleaving.Status.returned
      (fun _ : Nat => (Interleaving.Status.idle : Interleaving.Status Call))
    exact hidle
  | succ n ih =>
    obtain ⟨tr, ⟨db, status⟩, hrun, rfl, hidle⟩ := ih
    obtain ⟨tr', hrun'⟩ : ∃ tr, Run (Step env) ⟨_, status⟩ tr _ :=
      (completes_issue hety n).exists_run (i := n + 1) hkind (hidle _ (Nat.lt_succ_self n))
    refine ⟨tr ++ tr', _, hrun.append hrun', rfl, fun i hi => ?_⟩
    exact (Function.update_of_ne hi.ne' _ _).trans (hidle i (by omega))

lemma statesOf_updateEntry :
    ((issuedDatabase request formattedList (n + 1)).updateEntry (.index 0 n) .revoked).statesOf 0 =
      lastRevoked n := by
  have hents : ((issuedDatabase request formattedList (n + 1)).updateEntry (.index 0 n) .revoked).entries =
      (range (n + 1)).map fun index =>
        ⟨0, some index, request.entity, if index = n then .revoked else .active⟩ := by
    refine ext_getElem? fun entryId => ?_
    rw [updateEntry, issuedDatabase, getElem?_mapIdx, getElem?_map, getElem?_map, Option.map_map]
    refine congrArg (Option.map · (range (n + 1))[entryId]?) (funext fun index => ?_)
    by_cases hlast : index = n
    · simp [hlast, UpdateRevocationListEntryId.selects]
    · simp [hlast, UpdateRevocationListEntryId.selects]
  have hsts : ((issuedDatabase request formattedList (n + 1)).updateEntry (.index 0 n) .revoked).statesOf 0 =
      (range (n + 1)).map fun index => (index, if index = n then .revoked else .active) := by
    rw [statesOf, rowsOf, hents, filter_eq_self.2 (by simp), filterMap_map]
    exact congrFun filterMap_eq_map _
  have hrest : ((range n).map fun index =>
      (index, if index = n then RevocationListEntryStatus.revoked else .active)) =
        (range n).map fun index => (index, .active) := by
    refine map_congr_left fun index hidx => ?_
    rw [if_neg (mem_range.1 hidx).ne]
  rw [hsts, range_succ, map_append, hrest, map_singleton, if_pos rfl, lastRevoked]

end Issuing

def sampleRequest : IssueRequest :=
  ⟨.walletUnitAttestedKey "key", .tokenStatusList,
    ⟨"issuer", none, .revocationAndSuspension, "TOKENSTATUSLIST"⟩⟩

lemma exists_formatEntries (h : db.Allocated) (hlen : db.entries.length ≤ 131072)
    (key : ListKey) (listId : Nat) : ∃ formattedList,
      sample.formatEntries .tokenStatusList key listId (db.getEntries listId) =
        .ok formattedList := by
  obtain ⟨token, htok⟩ := (@exists_generateToken_statesOf_iff db listId .sample h).2
    (marksAllocated_of_length_le h hlen)
  have htok' : generateToken sample.token _ _ _ = .ok token := htok
  refine ⟨token, ?_⟩
  rw [formatEntries, encode_token .sample key.purpose h, htok']
  rfl

/-- From the empty tables there is a run in which 131073 entries are issued and the last one is revoked.
The token that is to be made of the entries afterwards addresses a bit that is not allocated. -/
theorem last_issued_entry_not_encodable :
    ∃ tr c, Run (Step .sample) ⟨⟨[], [], fun _ => none⟩, fun _ => .idle⟩ tr c ∧
      Environment.sample.encode .tokenStatusList .revocationAndSuspension (c.shared.getEntries 0) =
        .error (.panic "index out of bounds: 262151 >= 262146") ∧
      ¬AllocationSafe .sample ⟨[], [], fun _ => none⟩ tr := by
  have hemp : (mk [] [] fun _ => none).Allocated := ⟨fun _ => rfl, nofun⟩
  obtain ⟨formattedList, hfmt⟩ := exists_formatEntries hemp (Nat.zero_le _) sampleRequest.key 0
  obtain ⟨tr, ⟨db, status⟩, hiss, rfl, hidle⟩ :=
    @exists_run_issuing _ sampleRequest _ rfl (fun _ => rfl) hfmt 131072
  have hupd : Interleaving.Completes (Next .sample) (issuedDatabase sampleRequest formattedList 131073)
      (.update (.index 0 131072) .revoked) (.works, .updated (.index 0 131072) .revoked) _ :=
    .last rfl
  obtain ⟨tr', hrevoke⟩ : ∃ tr', Run (Step .sample) ⟨_, status⟩ tr' _ :=
    hupd.exists_run (i := 131073) trivial (hidle _ (by omega))
  have hrun := hiss.append hrevoke
  have hpanic : sample.encode .tokenStatusList .revocationAndSuspension
      (((issuedDatabase sampleRequest formattedList 131073).updateEntry (.index 0 131072)
        .revoked).getEntries 0) = .error (.panic "index out of bounds: 262151 >= 262146") := by
    rw [encode_token .sample .revocationAndSuspension (allocated_of_run hrun hemp),
      statesOf_updateEntry, length_lastRevoked]
    have htok := @generateToken_lastRevoked TokenLibrary.sample 2 131072 262146 262151
      (by decide) (by decide)
    exact congrArg (Except.mapError (Fault.map (EncodeError.token ∘ GenerateError.token))) htok
  refine ⟨_, _, hrun, hpanic, fun hsafe => ?_⟩
  exact hsafe.inside _ (mem_moments_of_run hrun) 0 _ .tokenStatusList rfl rfl _ hpanic

lemma allocated_issuedDatabase (request : IssueRequest) (formattedList : Str) (n : Nat) :
    (issuedDatabase request formattedList n).Allocated := by
  refine ⟨fun listId => ?_, fun row hrow => ?_⟩
  · by_cases hlist : listId = 0
    · subst hlist
      rw [rowsOf_issuedDatabase, issuedDatabase, map_map, length_map, length_range]
      rfl
    · have hnone : (issuedDatabase request formattedList n).rowsOf listId = [] := by
        refine filter_eq_nil_iff.2 fun row hrow heq => ?_
        obtain ⟨_, -, rfl⟩ := mem_map.1 hrow
        exact hlist (of_decide_eq_true heq).symm
      rw [hnone]
      rfl
  · obtain ⟨_, -, rfl⟩ := mem_map.1 hrow
    exact Nat.zero_lt_one

def sampleSchedule : List (Interleaving.Action Nat Call Answer) :=
  [.begins 0 (.issue (.find sampleRequest)), .begins 1 (.update (.index 0 1) .revoked),
    .steps 0 .works, .steps 1 .works, .steps 0 .works]

/-- A third entry is issued and the second one is revoked, and the list can be encoded. -/
theorem third_entry_allocated :
    ∃ tr c, Run (Step .sample) ⟨issuedDatabase sampleRequest [] 2, fun _ => .idle⟩ tr c ∧
      c.shared.statesOf 0 = [(0, .active), (1, .revoked), (2, .active)] ∧
      AllocationSafe .sample (issuedDatabase sampleRequest [] 2) tr := by
  obtain ⟨⟨tr, c⟩, hprf, hsts, hlen⟩ : ∃ r ∈ Interleaving.performAll (advance .sample)
      ⟨issuedDatabase sampleRequest [] 2, fun _ => .idle⟩ sampleSchedule,
        r.2.shared.statesOf 0 = [(0, .active), (1, .revoked), (2, .active)] ∧
        ∀ db ∈ moments (issuedDatabase sampleRequest [] 2) r.1, db.entries.length ≤ 131072 := by
    decide +kernel
  have hrun : Run (Step .sample) ⟨issuedDatabase sampleRequest [] 2, fun _ => .idle⟩ tr c :=
    Interleaving.run_performAll hprf (And.intro rfl trivial)
  have hstart := allocated_issuedDatabase sampleRequest [] 2
  refine ⟨tr, c, hrun, hsts, (allocationSafe_iff hstart hrun).2 fun db hdb => ?_⟩
  intro listId _ _ _
  exact marksAllocated_of_length_le (allocated_of_mem_moments hstart hrun hdb) (hlen db hdb)

end OneCore.Revocation
