/-
# The disclosures of a subtree

When a claim is selected, the holder hands on all that is inside it.  A payload that others have
issued may have plain values and digests at every level.  The collection of the disclosures follows
the digests of a value into the disclosures behind them, but it does not look into the plain values
next to the digests.
-/
import OneCore.SdJwt.Selection

namespace OneCore.SdJwt

open List JsonValue

variable (allDigests : List (Str × Disclosure))

/-- The disclosure is found inside the value, through other disclosures and through plain values. -/
inductive Inside : JsonValue → Disclosure → Prop
  | here {v : JsonValue} {d : Disclosure} (h : d ∈ directDisclosures allDigests v) : Inside v d
  | hidden {v : JsonValue} {d d' : Disclosure} (h : d ∈ directDisclosures allDigests v)
      (h' : Inside d.value d') : Inside v d'
  | plain {v : JsonValue} {e : Str × JsonValue} {d : Disclosure} (h : e ∈ v.children)
      (h' : Inside e.2 d) : Inside v d

/-- The value is reached through disclosures only. -/
def Entered : JsonValue → JsonValue → Prop :=
  Relation.ReflTransGen fun v w => ∃ d ∈ directDisclosures allDigests v, d.value = w

/-- The disclosure is found inside the value through other disclosures only. -/
def Collected (node : JsonValue) (d : Disclosure) : Prop :=
  ∃ v, Entered allDigests node v ∧ d ∈ directDisclosures allDigests v

/-- All disclosures inside the selected value are among those that are handed on. -/
def HandsOnSubtree (node : JsonValue) (result : List Str) : Prop :=
  ∀ d, Inside allDigests node d → d.disclosure ∈ result

/-- The disclosures inside of plain values, next to digests, are found on another way too. -/
def CollectsPlainParts (node : JsonValue) (way : List Str) : Prop :=
  ∀ v, Entered allDigests node v → ∀ e ∈ v.children, ∀ d, Inside allDigests e.2 d →
    d.disclosure ∈ way ∨ ∃ d', Collected allDigests node d' ∧ d'.disclosure = d.disclosure

variable {allDigests} {v node : JsonValue} {d d' : Disclosure} {texts : List Str} {bound : Nat}

lemma collected_iff : Collected allDigests node d ↔ d ∈ directDisclosures allDigests node ∨
    ∃ d' ∈ directDisclosures allDigests node, Collected allDigests d'.value d := by
  constructor
  · rintro ⟨v, hv, hd⟩
    rcases hv.cases_head with rfl | ⟨_, ⟨d', hd', rfl⟩, hv⟩
    · exact Or.inl hd
    · exact Or.inr ⟨d', hd', v, hv, hd⟩
  · rintro (hd | ⟨d', hd', v, hv, hd⟩)
    · exact ⟨node, .refl, hd⟩
    · exact ⟨v, .head ⟨d', hd', rfl⟩ hv, hd⟩

lemma mem_collect_iff (h : collectAllSubdisclosures allDigests bound node = .ok texts) (x : Str) :
    x ∈ texts ↔ ∃ d, Collected allDigests node d ∧ d.disclosure = x := by
  induction bound generalizing node texts x with
  | zero => cases h
  | succ bound ih =>
    obtain ⟨arrange, harr, hsucc⟩ := exists_collect_succ allDigests node
    rw [hsucc] at h
    rw [Except.mem_of_flatMapM_eq_ok h]
    simp only [ok_iffs]
    constructor
    · rintro ⟨d, hd, _, ⟨sub, hsub, rfl⟩, hx⟩
      rcases (harr d sub x).1 hx with rfl | hx
      · exact ⟨d, collected_iff.2 (Or.inl hd), rfl⟩
      · obtain ⟨d', hd', rfl⟩ := (ih hsub x).1 hx
        exact ⟨d', collected_iff.2 (Or.inr ⟨d, hd, hd'⟩), rfl⟩
    · rintro ⟨d, hd, rfl⟩
      have hok : ∀ d ∈ directDisclosures allDigests node, ∃ sub,
          collectAllSubdisclosures allDigests bound d.value = .ok sub := by
        intro d hd
        obtain ⟨_, h⟩ := Except.exists_of_flatMapM_eq_ok h hd
        obtain ⟨sub, hsub, -⟩ := bind_eq_ok.1 h
        exact ⟨sub, hsub⟩
      rcases collected_iff.1 hd with hd | ⟨d', hd', hd⟩
      · obtain ⟨sub, hsub⟩ := hok d hd
        exact ⟨d, hd, _, ⟨sub, hsub, rfl⟩, (harr _ _ _).2 (Or.inl rfl)⟩
      · obtain ⟨sub, hsub⟩ := hok d' hd'
        exact ⟨d', hd', _, ⟨sub, hsub, rfl⟩,
          (harr _ _ _).2 (Or.inr ((ih hsub _).2 ⟨d, hd, rfl⟩))⟩

lemma Entered.inside (h : Entered allDigests node v) (hd : Inside allDigests v d) :
    Inside allDigests node d := by
  induction h with
  | refl => exact hd
  | tail _ hstep ih =>
    obtain ⟨d', hd', rfl⟩ := hstep
    exact ih (.hidden hd' hd)

variable {env : Environment} {key : Str} {payload : JsonValue} {way result : List Str}
  {allDisclosures : List Disclosure}

lemma pathsToLeafs_singleton : pathsToLeafs [key] = [key] := by
  simp [pathsToLeafs, insertLeaf]

/-- The collection does not look into plain values, so that what is inside of them has to be found on
another way. -/
theorem handsOnSubtree_iff (hdig : computeDigests env allDisclosures = .ok allDigests)
    (hway : selectAlong allDigests key (key.splitOn nestedClaimMarker) payload = .ok (way, some node))
    (h : selectDisclosures env bound [key] payload allDisclosures = .ok result) :
    HandsOnSubtree allDigests node result ↔ CollectsPlainParts allDigests node way := by
  have hmem : ∀ x, x ∈ result ↔ x ∈ way ∨ ∃ d, Collected allDigests node d ∧ d.disclosure = x := by
    simp only [selectDisclosures, pathsToLeafs_singleton, ok_iffs] at h
    obtain ⟨_, hdig', selected, hsel, rfl⟩ := h
    obtain rfl := ok_unique hdig hdig'
    obtain ⟨texts, htexts⟩ := Except.exists_of_flatMapM_eq_ok hsel (mem_singleton_self key)
    have htexts' := htexts
    simp only [selectForKey, hway, Except.mapError_ok, Except.ok_bind, ok_iffs]
      at htexts'
    obtain ⟨sub, hsub, rfl⟩ := htexts'
    intro x
    rw [mem_eraseDups, Except.mem_of_flatMapM_eq_ok hsel, ← mem_collect_iff hsub]
    simp [htexts]
  simp only [HandsOnSubtree, hmem]
  constructor
  · intro hall v hv e he d hd
    exact hall d (hv.inside (.plain he hd))
  · intro hplain
    have hall : ∀ v d, Inside allDigests v d → Entered allDigests node v → d.disclosure ∈ way ∨
        ∃ d', Collected allDigests node d' ∧ d'.disclosure = d.disclosure := by
      intro v d hd hv
      induction hd with
      | here hd => exact Or.inr ⟨_, ⟨_, hv, hd⟩, rfl⟩
      | hidden hd _ ih => exact ih (hv.tail ⟨_, hd, rfl⟩)
      | plain he hd => exact hplain _ hv _ he _ hd
    exact fun d hd => hall node d hd .refl

def nestedDisclosure : Disclosure := ⟨['s'], some ['c'], .bool true, ['y'], ['x']⟩

/-- The selected object has a plain object in it, with a digest in this. -/
def plainNesting : JsonValue :=
  .object [(['a'], .object [(['b'], sdObject [['h', 'x']])])]

lemma selectDisclosures_plainNesting :
    selectDisclosures sampleEnvironment 3 [['a']] plainNesting [nestedDisclosure] = .ok [] := by
  rw [selectDisclosures, pathsToLeafs_singleton]
  rfl

theorem not_handsOnSubtree_plainNesting : ∃ allDigests node,
    computeDigests sampleEnvironment [nestedDisclosure] = .ok allDigests ∧
    selectAlong allDigests ['a'] [['a']] plainNesting = .ok ([], some node) ∧
    selectDisclosures sampleEnvironment 3 [['a']] plainNesting [nestedDisclosure] = .ok [] ∧
    ¬HandsOnSubtree allDigests node [] := by
  refine ⟨_, _, rfl, rfl, selectDisclosures_plainNesting, fun h => ?_⟩
  exact not_mem_nil (h nestedDisclosure (.plain mem_cons_self (.here mem_cons_self)))

theorem handsOnSubtree_plainNesting_iff : ∃ allDigests node,
    HandsOnSubtree allDigests node [] ↔ CollectsPlainParts allDigests node [] :=
  ⟨_, _, handsOnSubtree_iff rfl rfl selectDisclosures_plainNesting⟩

end OneCore.SdJwt
