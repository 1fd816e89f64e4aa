/-
# Accepted logs of did:webvh

The version id of an entry is its index and the hash of its content, and the hash covers the version id of the
entry before it.  So the version id of the last entry determines all entries of a log that is accepted, up to
their proofs: this is read off from the end of the log.

The keys that may sign an entry are those that were set last before it.  With pre-rotation an entry has to
list its keys, and their hashes were announced before.  The announced hashes stay in force until an entry
announces others: an entry that announces none hands on those of an earlier entry.
-/
import OneCore.Lib.Decimal
import OneCore.Did.WebVh

namespace OneCore.WebVh

open List Environment Path

variable {Key : Type} {env : Environment Key} {params params' : Params} {state final : LogState}
  {log log' pre post : List (DidLogEntry × Str)} {e : DidLogEntry × Str} {scid scid' : Str}

/-! ### The loop over the entries -/

def LogState.next (state : LogState) (entry : DidLogEntry) : LogState :=
  ⟨state.index + 1, applyParameters state.activeParameters entry.parameters, entry.versionId,
    some entry.versionTime⟩

def LogState.after (state : LogState) (entries : List (DidLogEntry × Str)) : LogState :=
  entries.foldl (fun state e => state.next e.1) state

lemma LogState.after_append_singleton : state.after (pre ++ [e]) = (state.after pre).next e.1 :=
  foldl_concat ..

lemma LogState.index_after :
    (state.after pre).index = state.index + pre.length := by
  induction pre using reverseRecOn with
  | nil => rfl
  | append_singleton pre e ih =>
    rw [after_append_singleton, length_append]
    simp only [next, ih, length_singleton]
    omega

/-- The checks of an entry that the order of the entries matters for. -/
structure Environment.Passes (env : Environment Key) (state : LogState) (e : DidLogEntry × Str) : Prop where
  versionId : env.verifyVersionId state.scidOrVersionId (state.index + 1) e.2 = .ok ()
  proof : env.verifyProof state.activeParameters e.1 = .ok ()
  prerotation : env.checkPrerotation state.index state.activeParameters e.1.parameters = .ok ()

lemma passes_of_verifyEntry (h : env.verifyEntry params state e = .ok final) :
    env.Passes state e ∧ final = state.next e.1 := by
  simp only [verifyEntry, ok_iffs, exists_unit_iff] at h
  obtain ⟨hvid, hprf, -, -, -, hprer, rfl⟩ := h
  exact ⟨⟨hvid, hprf, hprer⟩, rfl⟩

lemma passes_of_foldlM (h : (pre ++ e :: post).foldlM (env.verifyEntry params) state = .ok final) :
    env.Passes (state.after pre) e := by
  induction pre generalizing state with
  | nil =>
    rw [nil_append, foldlM_cons, bind_eq_ok] at h
    obtain ⟨_, hent, -⟩ := h
    exact (passes_of_verifyEntry hent).1
  | cons f pre ih =>
    rw [cons_append, foldlM_cons, bind_eq_ok] at h
    obtain ⟨_, hent, hrest⟩ := h
    obtain ⟨-, rfl⟩ := passes_of_verifyEntry hent
    exact ih hrest

/-- A log that is cut off after one of its entries is accepted as well. -/
theorem verifyDidLog_of_isPrefix (h : env.verifyDidLog params log = .ok ()) (hpre : pre <+: log)
    (hne : pre ≠ []) : env.verifyDidLog params pre = .ok () := by
  obtain ⟨rest, rfl⟩ := hpre
  simp only [verifyDidLog, ok_iffs, exists_unit_iff, foldlM_append, head?_append_of_ne_nil _ hne] at h ⊢
  obtain ⟨hlen, first, hfst, scid, hscid, hver, _, ⟨state, hstate, -⟩, -⟩ := h
  refine ⟨fun limit hlim => ?_, first, hfst, scid, hscid, hver, state, hstate, ⟨⟩⟩
  exact (prefix_append pre rest).length_le.trans (hlen limit hlim)

lemma exists_of_verifyDidLog (h : env.verifyDidLog params log = .ok ()) :
    ∃ first scid, log.head? = some first ∧ ∀ pre e post, log = pre ++ e :: post →
      env.Passes ((LogState.mk 0 first.1.parameters scid none).after pre) e := by
  simp only [verifyDidLog, ok_iffs, exists_unit_iff] at h
  obtain ⟨-, first, hfst, scid, -, -, final, hfold, -⟩ := h
  refine ⟨first, scid, hfst, fun pre e post hlog => ?_⟩
  rw [hlog] at hfold
  exact passes_of_foldlM hfold

/-! ### Tamper evidence -/

namespace Environment

variable (env)

/-- Two JSON values with the same canonical form. -/
def SameValue (v w : JsonValue) : Prop := env.canonicalText v = env.canonicalText w

/-- The lines have the same version id and the same values for its time, the parameters and the state. -/
def SameEntry (line line' : Str) : Prop :=
  ∃ versionId time parameters state proof time' parameters' state' proof',
    env.parseJson line = .ok (.array [.string versionId, time, parameters, state, proof]) ∧
    env.parseJson line' = .ok (.array [.string versionId, time', parameters', state', proof']) ∧
    env.SameValue time time' ∧ env.SameValue parameters parameters' ∧ env.SameValue state state'

/-- The canonical form of a text or an array determines the text, and the values of the array. -/
structure CanonicalInjective : Prop where
  string : ∀ {a b}, env.SameValue (.string a) (.string b) → a = b
  array : ∀ {l l'}, env.SameValue (.array l) (.array l') → Forall₂ env.SameValue l l'

/-- The entry is read from its line: the version id is that of the JSON value. -/
def ReadFrom (e : DidLogEntry × Str) : Prop :=
  ∀ json, env.parseJson e.2 = .ok json → ∀ versionId, env.currentVersionId json = .ok versionId →
    e.1.versionId = versionId

/-- Each version id is the index of the entry and its hash with the version id before it, or with the SCID. -/
def Chained (scid : Str) (log : List (DidLogEntry × Str)) : Prop :=
  ∀ pre e post, log = pre ++ e :: post →
    env.verifyVersionId ((pre.getLast?.map fun f => f.1.versionId).getD scid) (pre.length + 1) e.2 = .ok ()

end Environment

lemma exists_chained (h : env.verifyDidLog params log = .ok ()) : ∃ scid, env.Chained scid log := by
  obtain ⟨first, scid, -, hpasses⟩ := exists_of_verifyDidLog h
  refine ⟨scid, fun pre e post hlog => ?_⟩
  have hvid := (hpasses pre e post hlog).versionId
  rw [LogState.index_after] at hvid
  cases pre using reverseRecOn with
  | nil => exact hvid
  | append_singleton pre f =>
    rw [LogState.after_append_singleton] at hvid
    simpa [LogState.next] using hvid

variable {index : Nat} {parameters : DidLogParameters}

lemma exists_of_verifyVersionId {slot line : Str}
    (h : env.verifyVersionId slot index line = .ok ()) :
    ∃ time parameters state proof hash,
      env.parseJson line = .ok (.array [.string ((toString index).toList ++ '-' :: hash), time, parameters,
        state, proof]) ∧
      env.entryHash (.array [.string slot, time, parameters, state]) = .ok hash := by
  simp only [verifyVersionId, ok_iffs, exists_unit_iff] at h
  obtain ⟨json, hjson, hashed, hhashed, versionId, hvid, ⟨index', hash⟩, hspl, rfl, _, hhash, rfl⟩ := h
  unfold hashedEntry at hhashed
  split at hhashed
  · next first time parameters state proof =>
    cases hhashed
    obtain ⟨rfl, -⟩ := splitOnce_eq_some_iff.1 hspl
    unfold currentVersionId at hvid
    split at hvid
    · next heq =>
      cases heq
      cases hvid
      exact ⟨time, parameters, state, proof, _, hjson, hhash⟩
    · cases hvid
    · cases hvid
  · cases hhashed
  · cases hhashed

lemma dash_notMem_toString (n : Nat) : '-' ∉ (toString n).toList := by
  rw [Decimal.toList_toString]
  intro h
  have hdgt := Nat.isDigit_of_mem_toDigits (by decide) (by decide) h
  revert hdgt
  decide

/-- One step from the end of the logs towards their beginning: entries with the same version id have the same
content, the same index, and the same version id before them. -/
lemma sameEntry_of_versionId (hhash : env.HashInjective) (hcan : env.CanonicalInjective)
    {slot slot' : Str} {e' : DidLogEntry × Str} {index' : Nat} (hread : env.ReadFrom e)
    (hread' : env.ReadFrom e') (hid : e.1.versionId = e'.1.versionId)
    (h : env.verifyVersionId slot index e.2 = .ok ())
    (h' : env.verifyVersionId slot' index' e'.2 = .ok ()) :
    env.SameEntry e.2 e'.2 ∧ index = index' ∧ slot = slot' := by
  obtain ⟨time, parameters, state, proof, hash, hjson, hent⟩ := exists_of_verifyVersionId h
  obtain ⟨time', parameters', state', proof', hash', hjson', hent'⟩ := exists_of_verifyVersionId h'
  have hids : (toString index).toList ++ '-' :: hash = (toString index').toList ++ '-' :: hash' := by
    rw [← hread _ hjson _ rfl, ← hread' _ hjson' _ rfl, hid]
  have hspl := splitOnce_append (dash_notMem_toString index) hash
  rw [hids, splitOnce_append (dash_notMem_toString index')] at hspl
  obtain ⟨hidx, rfl⟩ := Prod.mk.inj (Option.some.inj hspl)
  obtain rfl := Decimal.toString_toList_injective hidx
  have hvals := hcan.array (canonicalText_eq_of_entryHash hhash hent hent')
  simp only [forall₂_cons, forall₂_nil_left_iff, and_true] at hvals
  obtain ⟨hslot, htime, hprms, hst⟩ := hvals
  exact ⟨⟨_, time, parameters, state, proof, time', parameters', state', proof', hjson, hjson', htime,
    hprms, hst⟩, rfl, hcan.string hslot⟩

lemma Environment.Chained.init (h : env.Chained scid (log ++ [e])) : env.Chained scid log := by
  intro pre f post hlog
  exact h pre f (post ++ [e]) (by simp [hlog])

lemma forall₂_sameEntry_of_chained (hhash : env.HashInjective) (hcan : env.CanonicalInjective)
    (hread : ∀ e ∈ log, env.ReadFrom e) (hread' : ∀ e ∈ log', env.ReadFrom e)
    (h : env.Chained scid log) (h' : env.Chained scid' log')
    (hlast : (log.getLast?.map fun e => e.1.versionId) = log'.getLast?.map fun e => e.1.versionId) :
    Forall₂ (fun e e' => env.SameEntry e.2 e'.2) log log' := by
  -- The induction removes the last entries.
  induction log using reverseRecOn generalizing log' with
  | nil =>
    have hnil : log' = [] := by simpa [eq_comm] using hlast
    rw [hnil]
    exact .nil
  | append_singleton log e ih =>
    cases log' using reverseRecOn with
    | nil => simp at hlast
    | append_singleton log' e' =>
      have hid : e.1.versionId = e'.1.versionId := by simpa using hlast
      obtain ⟨hsame, hidx, hslot⟩ := sameEntry_of_versionId hhash hcan (hread e (by simp))
        (hread' e' (by simp)) hid (h log e [] rfl) (h' log' e' [] rfl)
      have hlen : log.length = log'.length := Nat.succ.inj hidx
      have hrest : Forall₂ (fun e e' => env.SameEntry e.2 e'.2) log log' := by
        refine ih (fun f hf => hread f (by simp [hf])) (fun f hf => hread' f (by simp [hf])) h.init h'.init ?_
        cases log using reverseRecOn with
        | nil => rw [length_eq_zero_iff.1 hlen.symm]
        | append_singleton log f =>
          cases log' using reverseRecOn with
          | nil => simp at hlen
          | append_singleton log' f' => simpa using hslot
      exact rel_append hrest (.cons hsame .nil)

/-- Two logs that are accepted and whose last entries have the same version id have the same length, and entry
by entry the same version id, version time, parameters and state. -/
theorem verifyDidLog_tamper_evident (hhash : env.HashInjective) (hcanonical : env.CanonicalInjective)
    (hread : ∀ e ∈ log, env.ReadFrom e) (hread' : ∀ e ∈ log', env.ReadFrom e)
    (h : env.verifyDidLog params log = .ok ()) (h' : env.verifyDidLog params' log' = .ok ())
    (hlast : (log.getLast?.map fun e => e.1.versionId) = log'.getLast?.map fun e => e.1.versionId) :
    log.length = log'.length ∧ Forall₂ (fun e e' => env.SameEntry e.2 e'.2) log log' := by
  obtain ⟨scid, hchai⟩ := exists_chained h
  obtain ⟨scid', hchai'⟩ := exists_chained h'
  have hsame := forall₂_sameEntry_of_chained hhash hcanonical hread hread' hchai hchai' hlast
  exact ⟨hsame.length_eq, hsame⟩

mutual

/-- A canonical form that tells texts and arrays apart: each value of an array after its length. -/
def sampleText : JsonValue → Str
  | .string s => 's' :: s
  | .array l => 'a' :: sampleTexts l
  | _ => []

def sampleTexts : List JsonValue → Str
  | [] => []
  | v :: l => replicate (sampleText v).length '1' ++ '0' :: (sampleText v ++ sampleTexts l)

end

lemma forall₂_of_sampleTexts {l l' : List JsonValue} (h : sampleTexts l = sampleTexts l') :
    Forall₂ (fun v w => sampleText v = sampleText w) l l' := by
  induction l generalizing l' with
  | nil =>
    cases l' with
    | nil => exact .nil
    | cons w l' => simp [sampleTexts] at h
  | cons v l ih =>
    cases l' with
    | nil => simp [sampleTexts] at h
    | cons w l' =>
      -- The lengths are written in ones, up to the first zero.
      have hones : ∀ n : Nat, '0' ∉ replicate n '1' := by simp
      have hspl := splitOnce_append (hones (sampleText v).length) (sampleText v ++ sampleTexts l)
      simp only [sampleTexts] at h
      rw [h, splitOnce_append (hones _)] at hspl
      obtain ⟨hlen, htexts⟩ := Prod.mk.inj (Option.some.inj hspl)
      have hlen' : (sampleText w).length = (sampleText v).length := by
        simpa using congrArg length hlen
      obtain ⟨hfst, hrest⟩ := append_inj htexts hlen'
      exact .cons hfst.symm (ih hrest.symm)

def sampleLine (scid : Str) (line : Str) : JsonValue :=
  .array [.string ("1-".toList ++ sampleText (.array [.string scid, .null, .null, .null])), .null, .null, .null,
    .string line]

def sampleScid : Str := sampleText (.array [.string scidPlaceholder, .null, .null, .null])

def Environment.sampleChain : Environment Unit :=
  { sample "" with
    parseJson := fun line => .ok (sampleLine sampleScid line)
    canonicalText := sampleText }

def sampleChain (line : Str) : List (DidLogEntry × Str) :=
  [(sampleEntry sampleScid
    ("1-".toList ++ sampleText (.array [.string sampleScid, .null, .null, .null])) "", line)]

/-- Two logs that differ in their proofs. -/
theorem verifyDidLog_tamper_evident_sampleChain :
    (sampleChain ['p']).length = (sampleChain ['q']).length ∧
      Forall₂ (fun e e' => Environment.sampleChain.SameEntry e.2 e'.2) (sampleChain ['p'])
        (sampleChain ['q']) := by
  have hread : ∀ line, ∀ e ∈ sampleChain line, Environment.sampleChain.ReadFrom e := by
    intro line e he json hjson versionId hvid
    obtain rfl := mem_singleton.1 he
    cases hjson
    cases hvid
    rfl
  have hacc : ∀ line, Environment.sampleChain.verifyDidLog .sample (sampleChain line) = .ok () :=
    fun line => by rfl
  exact verifyDidLog_tamper_evident
    ⟨(hashInjective_sample "").sha256, (hashInjective_sample "").multihashB58Encode⟩
    ⟨fun h => (cons.inj h).2, fun h => forall₂_of_sampleTexts (cons.inj h).2⟩ (hread _) (hread _)
    (hacc _) (hacc _) rfl

/-! ### Key control -/

/-- The update keys of the latest entry that sets them. -/
def latestUpdateKeys (entries : List (DidLogEntry × Str)) : Option (List Str) :=
  entries.reverse.findSome? fun e => e.1.parameters.updateKeys

/-- An entry has switched pre-rotation on. -/
def PrerotationOn (entries : List (DidLogEntry × Str)) : Prop :=
  ∃ e ∈ entries, e.1.parameters.prerotation = some true

namespace Environment

variable (env)

/-- The entry has a proof for its version id and its document by one of the keys. -/
def SignedBy (keys : List Str) (entry : DidLogEntry) : Prop :=
  ∃ proof ∈ entry.proof, ∃ key multibase value message docHash signature,
    proof.challenge = some entry.versionId ∧
    env.publicKeyAsMultibase key = .ok multibase ∧ multibase ∈ keys ∧
    env.proofToValue { proof with proofValue := none } = .ok value ∧
    env.canonicalizedHash value = .ok message ∧ env.canonicalizedHash entry.source = .ok docHash ∧
    env.verify key (message ++ docHash) signature = .ok ()

def Announced (hashes : List Str) (key : Str) : Prop :=
  ∃ hash text, env.sha256 key = .ok hash ∧ env.multihashB58Encode hash = .ok text ∧ text ∈ hashes

/-- Every entry after the first is signed by a key that was set last before it; after pre-rotation was switched
on, every entry keeps it on and lists keys that the entry before it announces. -/
def KeyControlled (log : List (DidLogEntry × Str)) : Prop :=
  ∀ pre f e post, log = pre ++ f :: e :: post →
    (∃ keys, latestUpdateKeys (pre ++ [f]) = some keys ∧ env.SignedBy keys e.1) ∧
    (PrerotationOn (pre ++ [f]) → e.1.parameters.prerotation = some true ∧
      ∃ keys, e.1.parameters.updateKeys = some keys ∧
        ∀ key ∈ keys, env.Announced f.1.parameters.nextKeyHashes key)

end Environment

lemma updateKeys_after :
    (state.after pre).activeParameters.updateKeys =
      (latestUpdateKeys pre).or state.activeParameters.updateKeys := by
  induction pre using reverseRecOn with
  | nil => rfl
  | append_singleton pre e ih =>
    rw [LogState.after_append_singleton]
    simp only [LogState.next, applyParameters, ih, latestUpdateKeys, reverse_append,
      reverse_singleton, singleton_append, findSome?_cons]
    cases e.1.parameters.updateKeys <;> rfl

lemma prerotation_after :
    (state.after pre).activeParameters.prerotation = some true ↔
      state.activeParameters.prerotation = some true ∨ PrerotationOn pre := by
  induction pre using reverseRecOn with
  | nil => simp [LogState.after, PrerotationOn]
  | append_singleton pre e ih =>
    have hon : PrerotationOn (pre ++ [e]) ↔
        PrerotationOn pre ∨ e.1.parameters.prerotation = some true := by
      simp [PrerotationOn, or_and_right, exists_or]
    rw [LogState.after_append_singleton, hon, ← or_assoc, ← ih]
    simp only [LogState.next, applyParameters]
    split
    · next h => simp [h]
    · next h => simp [h]

lemma signedBy_of_verifyProof {entry : DidLogEntry}
    (h : env.verifyProof parameters entry = .ok ()) :
    ∃ keys, parameters.updateKeys = some keys ∧ env.SignedBy keys entry := by
  simp only [verifyProof, verifyVerificationMethod, ok_iffs, exists_unit_iff] at h
  obtain ⟨proof, hprf, challenge, hchal, -, rfl, key, ⟨_, -, _, -, _, -, _, -, multibase, hmult, keys,
    hkeys, hmem, rfl⟩, _, -, value, hval, message, hmsg, docHash, hdocH, signature, -, hvfy⟩ := h
  exact ⟨keys, hkeys, proof, mem_of_find?_eq_some hprf, _, multibase, value, message, docHash, signature,
    hchal, hmult, hmem, hval, hmsg, hdocH, hvfy⟩

lemma checkUpdateKey_eq_ok_iff {hashes : List Str} {key : Str} :
    env.checkUpdateKey hashes key = .ok () ↔ env.Announced hashes key := by
  simp [checkUpdateKey, Environment.Announced, ok_iffs]

lemma announced_of_checkPrerotation {active : DidLogParameters} (hidx : 0 < index)
    (hact : active.prerotation = some true)
    (h : env.checkPrerotation index active parameters = .ok ()) :
    parameters.prerotation = some true ∧ ∃ keys, parameters.updateKeys = some keys ∧
      ∀ key ∈ keys, env.Announced active.nextKeyHashes key := by
  simp only [checkPrerotation, hact, hidx, Except.checkIf, Option.getD_some, decide_true,
    Bool.and_self, if_true, ok_iffs, exists_unit_iff, forM_eq_ok, checkUpdateKey_eq_ok_iff] at h
  obtain ⟨hprer, keys, hkeys, hann⟩ := h
  refine ⟨?_, keys, hkeys, hann⟩
  cases hprms : parameters.prerotation with
  | none => simp [hprms] at hprer
  | some on => simpa [hprms] using hprer

lemma latestUpdateKeys_or (h : e ∈ log) :
    (latestUpdateKeys log).or e.1.parameters.updateKeys = latestUpdateKeys log := by
  cases hlatest : latestUpdateKeys log with
  | some keys => rfl
  | none =>
    rw [latestUpdateKeys, findSome?_eq_none_iff] at hlatest
    simpa using hlatest e (mem_reverse.2 h)

/-- An entry after the first is signed by the keys in force, and with pre-rotation on, it lists keys announced
by the hashes in force: those of the entry before it, unless it has none. -/
lemma controlled_of_verifyDidLog (h : env.verifyDidLog params log = .ok ()) {f : DidLogEntry × Str}
    (hlog : log = pre ++ f :: e :: post) :
    (∃ keys, latestUpdateKeys (pre ++ [f]) = some keys ∧ env.SignedBy keys e.1) ∧
    (PrerotationOn (pre ++ [f]) → e.1.parameters.prerotation = some true ∧
      ∃ hashes keys, (f.1.parameters.nextKeyHashes = [] ∨ hashes = f.1.parameters.nextKeyHashes) ∧
        e.1.parameters.updateKeys = some keys ∧ ∀ key ∈ keys, env.Announced hashes key) := by
  obtain ⟨first, scid, hfst, hpasses⟩ := exists_of_verifyDidLog h
  have hfst' : first ∈ pre ++ [f] := by
    refine mem_of_head? ?_
    rw [← hfst, hlog]
    cases pre <;> rfl
  obtain ⟨-, hprf, hprer⟩ := hpasses (pre ++ [f]) e post (by simp [hlog])
  constructor
  · obtain ⟨keys, hkeys, hsgn⟩ := signedBy_of_verifyProof hprf
    rw [updateKeys_after, latestUpdateKeys_or hfst'] at hkeys
    exact ⟨keys, hkeys, hsgn⟩
  · intro hon
    have hidx : 0 < ((LogState.mk 0 first.1.parameters scid none).after (pre ++ [f])).index := by
      simp [LogState.index_after]
    obtain ⟨hkept, keys, hkeys, hann⟩ := announced_of_checkPrerotation hidx
      ((prerotation_after).2 (.inr hon)) hprer
    refine ⟨hkept, _, keys, ?_, hkeys, hann⟩
    rw [LogState.after_append_singleton]
    simp only [LogState.next, applyParameters]
    split
    · next hemp => exact .inl (isEmpty_iff.1 hemp)
    · exact .inr rfl

/-- All values have the same hash, and a line is its version id. -/
def Environment.sampleRotation : Environment Unit :=
  { sample "" with
    parseJson := fun line => .ok (.array [.string line, .null, .null, .null, .null])
    sha256 := fun _ => .ok []
    multihashB58Encode := fun _ => .ok ['h'] }

/-- An entry with pre-rotation that announces the given hashes. -/
def sampleRotation (versionId : String) (hashes : List Str) : DidLogEntry × Str :=
  ({ sampleEntry ['h'] versionId.toList "" with
      parameters := ⟨some .v3, some true, none, some ["k".toList], hashes, some ['h'], none⟩ },
    versionId.toList)

/-- A log of two entries, cut off after the first. -/
theorem first_entry_accepted :
    Environment.sampleRotation.verifyDidLog .sample [sampleRotation "1-h" [['h']]] = .ok () := by
  have hacc : Environment.sampleRotation.verifyDidLog .sample
      [sampleRotation "1-h" [['h']], sampleRotation "2-h" []] = .ok () := rfl
  exact verifyDidLog_of_isPrefix hacc ⟨_, rfl⟩ (cons_ne_nil _ _)

end OneCore.WebVh
