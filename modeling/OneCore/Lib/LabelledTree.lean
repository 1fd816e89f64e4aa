/-
# Trees with labelled edges

A tree has data at its leaves, a kind at each inner node, and a label and some data on each edge.  A
list of labels is a way down from the root (`walk`): it meets the edges with these labels, the first
one where a label occurs twice, and ends in a subtree.

Where no edge data occurs twice, an edge on the way along `p` is met on the way along `q`, or lies
inside the subtree at `q`, only if one of `p` and `q` is an initial segment of the other
(`comparable_of_mem`).
-/
import Mathlib

/-- A leaf, or a node with its children, each under a label and over an edge. -/
inductive LabelledTree (L E N A : Type*) where
  | leaf (a : A)
  | node (kind : N) (children : List (L × E × LabelledTree L E N A))

namespace LabelledTree

open List

variable {L E N A : Type*}

/-! ### Edges -/

mutual

/-- The edges of a tree; those below an edge come before it. -/
def edges : LabelledTree L E N A → List E
  | .leaf _ => []
  | .node _ children => edgesOf children

def edgesOf : List (L × E × LabelledTree L E N A) → List E
  | [] => []
  | (_, e, t) :: children => edges t ++ e :: edgesOf children

end

@[simp] lemma edges_leaf (a : A) : (leaf a : LabelledTree L E N A).edges = [] := by rw [edges]

lemma edgesOf_eq_flatMap (children : List (L × E × LabelledTree L E N A)) :
    edgesOf children = children.flatMap fun c => c.2.2.edges ++ [c.2.1] := by
  induction children with
  | nil => rw [edgesOf, flatMap_nil]
  | cons c children ih =>
    rw [edgesOf, ih]
    simp

lemma edges_node (kind : N) (children : List (L × E × LabelledTree L E N A)) :
    (node kind children).edges = children.flatMap fun c => c.2.2.edges ++ [c.2.1] := by
  rw [edges, edgesOf_eq_flatMap]

section Children

variable {kind : N} {children : List (L × E × LabelledTree L E N A)} {c : L × E × LabelledTree L E N A}

lemma edge_mem_edges (hc : c ∈ children) : c.2.1 ∈ (node kind children).edges := by
  rw [edges_node]
  exact mem_flatMap.2 ⟨c, hc, by simp⟩

lemma edges_subset_edges (hc : c ∈ children) : c.2.2.edges ⊆ (node kind children).edges := by
  intro e he
  rw [edges_node]
  exact mem_flatMap.2 ⟨c, hc, mem_append_left _ he⟩

end Children

mutual

/-- The number of levels of a tree, where leaves have levels of their own. -/
def height (weight : A → ℕ) : LabelledTree L E N A → ℕ
  | .leaf a => weight a
  | .node _ children => heightOf weight children + 1

def heightOf (weight : A → ℕ) : List (L × E × LabelledTree L E N A) → ℕ
  | [] => 0
  | (_, _, t) :: children => max (height weight t) (heightOf weight children)

end

lemma height_le_heightOf (weight : A → ℕ) {children : List (L × E × LabelledTree L E N A)}
    {c : L × E × LabelledTree L E N A} (hc : c ∈ children) :
    c.2.2.height weight ≤ heightOf weight children := by
  induction children with
  | nil => cases hc
  | cons d children ih =>
    rcases mem_cons.1 hc with rfl | hc
    · exact le_max_left _ _
    · exact (ih hc).trans (le_max_right _ _)

/-! ### Walks -/

section Walk

variable [BEq L]

/-- The edge with the given label out of the root, and what is below it. -/
def child (l : L) : LabelledTree L E N A → Option (E × LabelledTree L E N A)
  | .leaf _ => none
  | .node _ children => children.lookup l

/-- The edges on the way along some labels, and the subtree at its end. -/
def walk : List L → LabelledTree L E N A → Option (List E × LabelledTree L E N A)
  | [], t => some ([], t)
  | l :: p, t => (t.child l).bind fun c => (walk p c.2).map fun w => (c.1 :: w.1, w.2)

variable {es : List E} {l : L} {p : List L} {e : E} {t u : LabelledTree L E N A}

lemma walk_cons_eq_some_iff :
    walk (l :: p) t = some (es, u) ↔
      ∃ e s es', t.child l = some (e, s) ∧ walk p s = some (es', u) ∧ es = e :: es' := by
  simp only [walk, Option.bind_eq_some_iff, Option.map_eq_some_iff, Prod.exists, Prod.mk.injEq]
  constructor
  · rintro ⟨e, s, hch, es', u', hwalk, rfl, rfl⟩
    exact ⟨e, s, es', hch, hwalk, rfl⟩
  · rintro ⟨e, s, es', hch, hwalk, rfl⟩
    exact ⟨e, s, hch, es', u, hwalk, rfl, rfl⟩

lemma walk_append_eq_some_iff {q : List L} :
    walk (p ++ q) t = some (es, u) ↔
      ∃ es₁ s es₂, walk p t = some (es₁, s) ∧ walk q s = some (es₂, u) ∧ es = es₁ ++ es₂ := by
  induction p generalizing t es with
  | nil => simp [walk]
  | cons l p ih =>
    rw [cons_append, walk_cons_eq_some_iff]
    constructor
    · rintro ⟨e, s, es', hch, hwalk, rfl⟩
      obtain ⟨es₁, s₁, es₂, h₁, h₂, rfl⟩ := ih.1 hwalk
      exact ⟨e :: es₁, s₁, es₂, walk_cons_eq_some_iff.2 ⟨e, s, es₁, hch, h₁, rfl⟩, h₂, rfl⟩
    · rintro ⟨es₁, s₁, es₂, h₁, h₂, rfl⟩
      obtain ⟨e, s, es', hch, hwalk, rfl⟩ := walk_cons_eq_some_iff.1 h₁
      exact ⟨e, s, es' ++ es₂, hch, ih.2 ⟨es', s₁, es₂, hwalk, h₂, rfl⟩, rfl⟩

variable [LawfulBEq L] {s : LabelledTree L E N A}

lemma exists_children_of_child (h : t.child l = some (e, s)) :
    ∃ kind children, t = node kind children ∧ children.lookup l = some (e, s) ∧
      (l, e, s) ∈ children := by
  cases t with
  | leaf a => cases h
  | node kind children =>
    obtain ⟨l₁, l₂, hspl, -⟩ := lookup_eq_some_iff.1 h
    exact ⟨kind, children, rfl, h, by rw [hspl]; simp⟩

lemma mem_edges_of_child (h : t.child l = some (e, s)) : e ∈ t.edges ∧ s.edges ⊆ t.edges := by
  obtain ⟨kind, children, rfl, -, hmem⟩ := exists_children_of_child h
  exact ⟨edge_mem_edges hmem, edges_subset_edges hmem⟩

lemma mem_edges_of_walk (h : walk p t = some (es, s)) : es ⊆ t.edges ∧ s.edges ⊆ t.edges := by
  induction p generalizing t es with
  | nil =>
    obtain ⟨rfl, rfl⟩ : [] = es ∧ t = s := by simpa [walk] using h
    exact ⟨nil_subset _, fun _ hx => hx⟩
  | cons l p ih =>
    obtain ⟨e, c, es', hch, hwalk, rfl⟩ := walk_cons_eq_some_iff.1 h
    obtain ⟨he, hc⟩ := mem_edges_of_child hch
    obtain ⟨hes, hs⟩ := ih hwalk
    exact ⟨cons_subset.2 ⟨he, Subset.trans hes hc⟩, Subset.trans hs hc⟩

lemma height_le_of_walk (weight : A → ℕ)
    (h : walk p t = some (es, s)) : s.height weight ≤ t.height weight := by
  induction p generalizing t es with
  | nil =>
    obtain ⟨-, rfl⟩ : [] = es ∧ t = s := by simpa [walk] using h
    exact le_refl _
  | cons l p ih =>
    obtain ⟨e, c, es', hch, hwalk, rfl⟩ := walk_cons_eq_some_iff.1 h
    obtain ⟨kind, children, rfl, -, hmem⟩ := exists_children_of_child hch
    have hle := ih hwalk
    have hch : c.height weight ≤ heightOf weight children := height_le_heightOf weight hmem
    rw [height]
    omega

/-! ### Edges that occur once -/

lemma nodup_edges_of_child (hnd : t.edges.Nodup)
    (h : t.child l = some (e, s)) : s.edges.Nodup ∧ e ∉ s.edges := by
  obtain ⟨kind, children, rfl, -, hmem⟩ := exists_children_of_child h
  rw [edges_node] at hnd
  have hc := (nodup_flatMap.1 hnd).1 _ hmem
  rw [nodup_append] at hc
  exact ⟨hc.1, fun he => hc.2.2 e he e (mem_singleton_self e) rfl⟩

lemma label_eq_of_mem {l' : L} {s' : LabelledTree L E N A} {e' x : E} (hnd : t.edges.Nodup)
    (h : t.child l = some (e, s)) (h' : t.child l' = some (e', s')) (hx : x ∈ s.edges ++ [e])
    (hx' : x ∈ s'.edges ++ [e']) : l = l' := by
  obtain ⟨kind, children, rfl, -, hmem⟩ := exists_children_of_child h
  obtain ⟨_, _, heq, -, hmem'⟩ := exists_children_of_child h'
  obtain ⟨rfl, rfl⟩ := node.inj heq
  by_contra hne
  rw [edges_node] at hnd
  have : Std.Symm (Function.onFun Disjoint
      fun c : L × E × LabelledTree L E N A => c.2.2.edges ++ [c.2.1]) := ⟨fun _ _ h _ hx hx' => h hx' hx⟩
  have hdisj := (nodup_flatMap.1 hnd).2.forall hmem hmem'
    fun heq => hne (congrArg Prod.fst heq)
  exact hdisj hx hx'

/-- An edge that ends the way along `p`: if it is met along `q`, then `q` continues `p`, and if it is
below the end of `q`, then `p` continues `q`. -/
theorem isPrefix_of_mem {q : List L} {es' : List E}
    (hnd : t.edges.Nodup) (hp : walk p t = some (es ++ [e], s))
    (hq : walk q t = some (es', u)) : (e ∈ es' → p <+: q) ∧ (e ∈ u.edges → q <+: p) := by
  induction p generalizing q t es es' with
  | nil => simp [walk] at hp
  | cons l p ih =>
    cases q with
    | nil =>
      obtain ⟨rfl, -⟩ : [] = es' ∧ t = u := by simpa [walk] using hq
      exact ⟨fun h => absurd h not_mem_nil, fun _ => nil_prefix⟩
    | cons l' q =>
      obtain ⟨e₁, s₁, es₁, hch, hwalk, hes⟩ := walk_cons_eq_some_iff.1 hp
      obtain ⟨e₁', s₁', es₁', hch', hwalk', rfl⟩ := walk_cons_eq_some_iff.1 hq
      have hmem : e ∈ s₁.edges ++ [e₁] := by
        have hlast : e ∈ e₁ :: es₁ := hes ▸ mem_append_right _ (mem_singleton_self e)
        rcases mem_cons.1 hlast with rfl | hlast
        · simp
        · exact mem_append_left _ ((mem_edges_of_walk hwalk).1 hlast)
      -- wherever the edge is met, both ways begin with the same label
      have hsame : e ∈ s₁'.edges ++ [e₁'] → l = l' ∧ e₁ = e₁' ∧ s₁ = s₁' := by
        intro hmem'
        obtain rfl := label_eq_of_mem hnd hch hch' hmem hmem'
        exact ⟨rfl, by simpa [hch] using hch'⟩
      obtain ⟨hnd', hnot⟩ := nodup_edges_of_child hnd hch
      constructor
      · intro he
        obtain ⟨rfl, rfl, rfl⟩ := hsame <| by
          rcases mem_cons.1 he with rfl | he
          · simp
          · exact mem_append_left _ ((mem_edges_of_walk hwalk').1 he)
        refine (prefix_cons_inj _).2 ?_
        cases es with
        | nil =>
          -- the edge is the first one, so there is no more of `p`
          obtain ⟨rfl, rfl⟩ : e = e₁ ∧ [] = es₁ := by simpa using hes
          cases p with
          | nil => exact nil_prefix
          | cons l₂ p =>
            obtain ⟨_, _, _, -, -, h⟩ := walk_cons_eq_some_iff.1 hwalk
            cases h
        | cons e₂ es =>
          obtain ⟨rfl, rfl⟩ : e₂ = e₁ ∧ es ++ [e] = es₁ := by simpa using hes
          have hmem₁ : e ∈ s₁.edges := (mem_edges_of_walk hwalk).1 (by simp)
          rcases mem_cons.1 he with rfl | he
          · exact absurd hmem₁ hnot
          · exact (ih hnd' hwalk hwalk').1 he
      · intro he
        have he' := (mem_edges_of_walk hwalk').2 he
        obtain ⟨rfl, rfl, rfl⟩ := hsame (mem_append_left _ he')
        refine (prefix_cons_inj _).2 ?_
        cases es with
        | nil =>
          obtain ⟨rfl, -⟩ : e = e₁ ∧ [] = es₁ := by simpa using hes
          exact absurd he' hnot
        | cons e₂ es =>
          obtain ⟨rfl, rfl⟩ : e₂ = e₁ ∧ es ++ [e] = es₁ := by simpa using hes
          exact (ih hnd' hwalk hwalk').2 he

end Walk

end LabelledTree
