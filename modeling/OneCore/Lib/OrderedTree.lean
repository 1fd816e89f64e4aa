/-
# Ordered trees

A tree has labelled inner nodes, whose children are in an order, and labelled leaves.  A forest
is a list of trees.  A node of a forest is addressed by its position: the index of its tree, then
the index of a child at every level below.  The lexicographic order of positions is the order in
which the opening marks of the nodes stand when the forest is written out.

* `findIn` is the first inner node with a property, and `findIn_eq_some_iff` says so.
* `Occurs` places a tree between its siblings, `editAt` replaces a list of siblings, and `pruneAll`
  drops every subtree whose root has a property.
* `traverseAll` is a fallible relabelling that hands a context down, and `printAll` writes a forest
  out.  Both commute with editing: `traverseAll_editAt` and `exists_printAll_editAt`.
* A forest is written in fewer letters once something has been pruned from it
  (`length_printAll_pruneAll`).
-/
import OneCore.Lib.Result

/-- A tree with labels `α` at its inner nodes and labels `β` at its leaves. -/
inductive OrderedTree (α : Type*) (β : Type*) where
  | node (label : α) (children : List (OrderedTree α β))
  | leaf (label : β)

namespace OrderedTree

open List OrderedTree

variable {α β : Type*}

/-- The index of a tree of a forest, then the index of a child at every level below it. -/
abbrev Position := List Nat

/-- The subtree of a tree at a position below it. -/
def subtree? : OrderedTree α β → Position → Option (OrderedTree α β)
  | t, [] => some t
  | .node _ children, i :: pos => children[i]?.bind fun t => t.subtree? pos
  | .leaf _, _ :: _ => none

def treeAt (forest : List (OrderedTree α β)) : Position → Option (OrderedTree α β)
  | [] => none
  | i :: pos => forest[i]?.bind fun t => t.subtree? pos

def label? : OrderedTree α β → Option α
  | .node a _ => some a
  | .leaf _ => none

@[simp] lemma label?_node (a : α) (ts : List (OrderedTree α β)) :
    (node a ts).label? = some a := rfl

@[simp] lemma label?_leaf (b : β) : (leaf b : OrderedTree α β).label? = none := rfl

/-- The label of the inner node at a position of a forest. -/
def labelAt (forest : List (OrderedTree α β)) (pos : Position) : Option α :=
  (treeAt forest pos).bind label?

def children : OrderedTree α β → List (OrderedTree α β)
  | .node _ ts => ts
  | .leaf _ => []

/-- The labels above a position of a forest, the nearest first. -/
def ancestorsAt (forest : List (OrderedTree α β)) : Position → List α
  | [] => []
  | [_] => []
  | i :: j :: pos =>
    match forest[i]? with
    | some (.node a ts) => ancestorsAt ts (j :: pos) ++ [a]
    | _ => []

lemma subtree?_append (t : OrderedTree α β) (p q : Position) :
    t.subtree? (p ++ q) = (t.subtree? p).bind fun u => u.subtree? q := by
  induction p generalizing t with
  | nil => simp [subtree?]
  | cons i p ih =>
    cases t with
    | leaf b => simp [subtree?]
    | node a ts =>
      simp only [cons_append, subtree?]
      cases ts[i]? with
      | none => rfl
      | some u => exact ih u

variable {p : Position}

lemma treeAt_append (forest : List (OrderedTree α β)) (hp : p ≠ []) (q : Position) :
    treeAt forest (p ++ q) = (treeAt forest p).bind fun u => u.subtree? q := by
  cases p with
  | nil => exact absurd rfl hp
  | cons i p =>
    simp only [cons_append, treeAt]
    cases forest[i]? with
    | none => rfl
    | some t => exact subtree?_append t p q

variable {a : α} {q : Position} {forest ts : List (OrderedTree α β)}

lemma treeAt_append_of_treeAt_eq_node (h : treeAt forest p = some (.node a ts)) (hq : q ≠ []) :
    treeAt forest (p ++ q) = treeAt ts q := by
  have hp : p ≠ [] := by
    rintro rfl
    simp [treeAt] at h
  rw [treeAt_append forest hp, h]
  cases q with
  | nil => exact absurd rfl hq
  | cons i q => rfl

lemma labelAt_append_of_treeAt_eq_node (h : treeAt forest p = some (.node a ts)) (hq : q ≠ []) :
    labelAt forest (p ++ q) = labelAt ts q := by
  rw [labelAt, labelAt, treeAt_append_of_treeAt_eq_node h hq]

variable {pos : Position}

lemma labelAt_eq_some_iff :
    labelAt forest pos = some a ↔ ∃ ts, treeAt forest pos = some (.node a ts) := by
  simp only [labelAt, Option.bind_eq_some_iff]
  constructor
  · rintro ⟨t, ht, ha⟩
    cases t with
    | leaf b => simp at ha
    | node a' ts =>
      obtain rfl : a' = a := by simpa using ha
      exact ⟨ts, ht⟩
  · rintro ⟨ts, ht⟩
    exact ⟨_, ht, rfl⟩

/-! ### The first node with a property -/

/-- The position of the tree after a position's own at the top level. -/
def next : Position → Position
  | [] => []
  | i :: pos => (i + 1) :: pos

mutual

def find? (p : α → Bool) : OrderedTree α β → Option Position
  | .node a ts => if p a then some [] else findIn p ts
  | .leaf _ => none

def findIn (p : α → Bool) : List (OrderedTree α β) → Option Position
  | [] => none
  | t :: ts =>
    match t.find? p with
    | some pos => some (0 :: pos)
    | none => (findIn p ts).map next

end

/-- What a search for the first position with a property has to return: the least position whose
label has the property, or nothing if there is none. -/
def IsFirst (p : α → Bool) (label : Position → Option α) : Option Position → Prop
  | some pos => (∃ a, label pos = some a ∧ p a) ∧ ∀ q a, label q = some a → p a → ¬ q < pos
  | none => ∀ q a, label q = some a → ¬ p a

variable {p : α → Bool} {t : OrderedTree α β} {ts : List (OrderedTree α β)}

lemma IsFirst.congr {label label' : Position → Option α} {found : Option Position}
    (h : IsFirst p label found) (hlab : ∀ q a, p a → (label' q = some a ↔ label q = some a)) :
    IsFirst p label' found := by
  cases found with
  | none => exact fun q a hq ha => h q a ((hlab q a ha).1 hq) ha
  | some pos =>
    obtain ⟨⟨b, hb, hpb⟩, hleast⟩ := h
    exact ⟨⟨b, (hlab pos b hpb).2 hb, hpb⟩, fun q a hq ha => hleast q a ((hlab q a ha).1 hq) ha⟩

/-- The search in a forest, from the search in its first tree and in the others. -/
lemma IsFirst.cons {found rest : Option Position}
    (ht : IsFirst p (fun pos => (t.subtree? pos).bind label?) found)
    (hts : IsFirst p (labelAt ts) rest) :
    IsFirst p (labelAt (t :: ts))
      (match (motive := Option Position → Option Position) found with
        | some pos => some (0 :: pos)
        | none => rest.map next) := by
  cases found with
  | some pos =>
    refine ⟨ht.1, fun q a hq ha hlt => ?_⟩
    match q with
    | [] => simp [labelAt, treeAt] at hq
    | 0 :: q => exact ht.2 q a hq ha (by simpa using hlt)
    | (i + 1) :: q => simp [cons_lt_cons_iff] at hlt
  | none =>
    cases rest with
    | none =>
      intro q a hq
      match q with
      | [] => simp [labelAt, treeAt] at hq
      | 0 :: q => exact ht q a hq
      | (i + 1) :: q => exact hts (i :: q) a hq
    | some pos =>
      obtain ⟨⟨b, hb, hpb⟩, hleast⟩ := hts
      match pos with
      | [] => simp [labelAt, treeAt] at hb
      | j :: pos =>
        refine ⟨⟨b, hb, hpb⟩, fun q a hq ha hlt => ?_⟩
        match q with
        | [] => simp [labelAt, treeAt] at hq
        | 0 :: q => exact ht q a hq ha
        | (i + 1) :: q =>
          refine hleast (i :: q) a hq ha ?_
          simpa [next, cons_lt_cons_iff] using hlt

mutual

lemma isFirst_find? (p : α → Bool) :
    ∀ t : OrderedTree α β, IsFirst p (fun pos => (t.subtree? pos).bind label?) (t.find? p)
  | .leaf b => by
    intro q a hq
    cases q <;> simp [subtree?] at hq
  | .node a ts => by
    have hts := isFirst_findIn p ts
    by_cases ha : p a
    · rw [find?, if_pos ha]
      exact ⟨⟨a, rfl, ha⟩, fun q _ _ _ => not_lt_nil q⟩
    · rw [find?, if_neg ha]
      -- the root does not count, so what is first below it is first
      refine hts.congr fun q b hb => ?_
      cases q with
      | nil =>
        refine iff_of_false (fun hq => ?_) (by simp [labelAt, treeAt])
        obtain rfl : a = b := by simpa [subtree?] using hq
        exact ha hb
      | cons i q => rfl

lemma isFirst_findIn (p : α → Bool) :
    ∀ ts : List (OrderedTree α β), IsFirst p (labelAt ts) (findIn p ts)
  | [] => by
    intro q a hq
    cases q <;> simp [labelAt, treeAt] at hq
  | t :: ts => (isFirst_find? p t).cons (isFirst_findIn p ts)

end

/-- The search finds the least position whose label has the property. -/
lemma findIn_eq_some_iff :
    findIn p ts = some pos ↔
      (∃ a, labelAt ts pos = some a ∧ p a) ∧ ∀ q a, labelAt ts q = some a → p a → ¬ q < pos := by
  have hfst := isFirst_findIn p ts
  constructor
  · intro h
    rw [h] at hfst
    exact hfst
  · rintro ⟨⟨a, ha, hpa⟩, hleast⟩
    cases hfnd : findIn p ts with
    | none =>
      rw [hfnd] at hfst
      exact absurd hpa (hfst pos a ha)
    | some pos' =>
      rw [hfnd] at hfst
      obtain ⟨⟨b, hb, hpb⟩, hleast'⟩ := hfst
      have hle : pos ≤ pos' := not_lt.1 (hleast pos' b hb hpb)
      have hge : pos' ≤ pos := not_lt.1 (hleast' pos a ha hpa)
      rw [le_antisymm hge hle]

lemma findIn_eq_none_iff : findIn p ts = none ↔ ∀ q a, labelAt ts q = some a → ¬ p a := by
  have hfst := isFirst_findIn p ts
  constructor
  · intro h
    rw [h] at hfst
    exact hfst
  · intro h
    cases hfnd : findIn p ts with
    | none => rfl
    | some pos =>
      rw [hfnd] at hfst
      obtain ⟨⟨a, ha, hpa⟩, -⟩ := hfst
      exact absurd hpa (h pos a ha)

variable {l₁ l₂ : List (OrderedTree α β)}

lemma findIn_append_eq_none_iff :
    findIn p (l₁ ++ l₂) = none ↔ findIn p l₁ = none ∧ findIn p l₂ = none := by
  induction l₁ with
  | nil => simp [findIn]
  | cons t l₁ ih =>
    cases ht : t.find? p with
    | some pos => simp [findIn, ht]
    | none => simpa [findIn, ht] using ih

lemma findIn_eq_none_of_label? (h : ∀ t ∈ ts, t.label? = none) : findIn p ts = none := by
  induction ts with
  | nil => rfl
  | cons t ts ih =>
    cases t with
    | node a us => simpa using h _ mem_cons_self
    | leaf b =>
      have hts := ih fun u hu => h u (mem_cons_of_mem _ hu)
      simp [findIn, find?, hts]

lemma lt_append (pos : Position) (hq : q ≠ []) : pos < pos ++ q := by
  induction pos with
  | nil =>
    cases q with
    | nil => exact absurd rfl hq
    | cons i q => exact nil_lt_cons i q
  | cons i pos ih => exact cons_lt_cons_iff.2 (.inr ⟨rfl, ih⟩)

/-! ### A tree between its siblings -/

/-- The tree `t` is at a position of a forest, after the siblings `pre` and before `post`. -/
inductive Occurs : List (OrderedTree α β) → Position → List (OrderedTree α β) →
    OrderedTree α β → List (OrderedTree α β) → Prop
  | here (pre : List (OrderedTree α β)) (t : OrderedTree α β) (post : List (OrderedTree α β)) :
      Occurs (pre ++ t :: post) [pre.length] pre t post
  | inside {pre post : List (OrderedTree α β)} {pos : Position} {t : OrderedTree α β}
      (left : List (OrderedTree α β)) (a : α) (ts right : List (OrderedTree α β))
      (h : Occurs ts pos pre t post) :
      Occurs (left ++ .node a ts :: right) (left.length :: pos) pre t post

variable {forest pre post : List (OrderedTree α β)}

lemma Occurs.ne_nil (h : Occurs forest pos pre t post) : pos ≠ [] := by
  cases h <;> simp

lemma Occurs.treeAt_eq (h : Occurs forest pos pre t post) : treeAt forest pos = some t := by
  induction h with
  | here pre t post => simp [treeAt, subtree?]
  | inside left a ts right h ih =>
    have hnode : treeAt (left ++ .node a ts :: right) [left.length] = some (.node a ts) := by
      simp [treeAt, subtree?]
    exact (treeAt_append_of_treeAt_eq_node hnode h.ne_nil).trans ih

lemma Occurs.exists_inside {i j : Nat} (h : Occurs forest (i :: j :: pos) pre t post) :
    ∃ left a ts right, forest = left ++ .node a ts :: right ∧ i = left.length ∧
      Occurs ts (j :: pos) pre t post := by
  generalize hpos : i :: j :: pos = whole at h
  cases h with
  | here => simp at hpos
  | inside left a ts right h =>
    obtain ⟨rfl, rfl⟩ := cons.inj hpos
    exact ⟨left, a, ts, right, rfl, rfl, h⟩

lemma exists_occurs
    (h : treeAt forest pos = some t) : ∃ pre post, Occurs forest pos pre t post := by
  induction pos generalizing forest with
  | nil => simp [treeAt] at h
  | cons i pos ih =>
    obtain ⟨u, hu, ht⟩ := Option.bind_eq_some_iff.1 h
    obtain ⟨hi, rfl⟩ := List.getElem?_eq_some_iff.1 hu
    have hspl : forest = forest.take i ++ forest[i] :: forest.drop (i + 1) := by simp
    have hlen : (forest.take i).length = i := by simp; omega
    cases pos with
    | nil =>
      obtain rfl : forest[i] = t := by simpa [subtree?] using ht
      refine ⟨forest.take i, forest.drop (i + 1), ?_⟩
      have hocc := Occurs.here (forest.take i) forest[i] (forest.drop (i + 1))
      rwa [hlen, ← hspl] at hocc
    | cons j pos =>
      cases hnode : forest[i] with
      | leaf b => simp [hnode, subtree?] at ht
      | node a ts =>
        rw [hnode] at ht hspl
        obtain ⟨pre, post, hocc⟩ := @ih ts ht
        refine ⟨pre, post, ?_⟩
        have hinside := Occurs.inside (forest.take i) a ts (forest.drop (i + 1)) hocc
        rwa [hlen, ← hspl] at hinside

/-- Replace the siblings at a position, given those before, the tree there and those after. -/
def editAt (edit : List (OrderedTree α β) → OrderedTree α β → List (OrderedTree α β) →
    List (OrderedTree α β)) : List (OrderedTree α β) → Position → List (OrderedTree α β)
  | forest, [] => forest
  | forest, [i] =>
    match forest.drop i with
    | [] => forest
    | t :: post => edit (forest.take i) t post
  | forest, i :: j :: pos =>
    match forest.drop i with
    | .node a ts :: post => forest.take i ++ .node a (editAt edit ts (j :: pos)) :: post
    | _ => forest

/-- Take the tree at a position out of a forest. -/
def removeAt (forest : List (OrderedTree α β)) (pos : Position) : List (OrderedTree α β) :=
  editAt (fun pre _ post => pre ++ post) forest pos

section

variable (edit : List (OrderedTree α β) → OrderedTree α β → List (OrderedTree α β) → List (OrderedTree α β))

include edit

lemma editAt_here (pre : List (OrderedTree α β)) (t : OrderedTree α β)
    (post : List (OrderedTree α β)) :
    editAt edit (pre ++ t :: post) [pre.length] = edit pre t post := by
  simp [editAt]

lemma editAt_inside (left : List (OrderedTree α β)) (a : α)
    (ts right : List (OrderedTree α β)) (hpos : pos ≠ []) :
    editAt edit (left ++ .node a ts :: right) (left.length :: pos) =
      left ++ .node a (editAt edit ts pos) :: right := by
  cases pos with
  | nil => exact absurd rfl hpos
  | cons j pos => simp [editAt]

end

/-- The tree at a position, with its siblings before and after it. -/
def siblingsAt : List (OrderedTree α β) → Position →
    Option (List (OrderedTree α β) × OrderedTree α β × List (OrderedTree α β))
  | _, [] => none
  | forest, [i] =>
    match forest.drop i with
    | [] => none
    | t :: post => some (forest.take i, t, post)
  | forest, i :: j :: pos =>
    match forest.drop i with
    | .node _ ts :: _ => siblingsAt ts (j :: pos)
    | _ => none

lemma Occurs.siblingsAt_eq (h : Occurs forest pos pre t post) :
    siblingsAt forest pos = some (pre, t, post) := by
  induction h with
  | here pre t post => simp [siblingsAt]
  | @inside pre post pos t left a ts right h ih =>
    cases pos with
    | nil => exact absurd rfl h.ne_nil
    | cons j pos => simpa [siblingsAt] using ih

lemma Occurs.filterMap_label?_editAt (h : Occurs forest pos pre t post) (hpos : 2 ≤ pos.length)
    (edit : List (OrderedTree α β) → OrderedTree α β → List (OrderedTree α β) →
      List (OrderedTree α β)) :
    (editAt edit forest pos).filterMap label? = forest.filterMap label? := by
  cases h with
  | here => simp at hpos
  | inside left a ts right h =>
    rw [editAt_inside _ _ _ _ _ h.ne_nil]
    simp

/-! ### Dropping subtrees -/

mutual

/-- A tree without the subtrees whose root has a property; nothing if its own root has it. -/
def prune (p : α → Bool) : OrderedTree α β → List (OrderedTree α β)
  | .node a ts => if p a then [] else [.node a (pruneAll p ts)]
  | .leaf b => [.leaf b]

def pruneAll (p : α → Bool) : List (OrderedTree α β) → List (OrderedTree α β)
  | [] => []
  | t :: ts => t.prune p ++ pruneAll p ts

end

lemma pruneAll_append :
    pruneAll p (l₁ ++ l₂) = pruneAll p l₁ ++ pruneAll p l₂ := by
  induction l₁ with
  | nil => rfl
  | cons t l₁ ih => simp [pruneAll, ih]

/-- A subtree that pruning drops may as well be taken out before. -/
lemma pruneAll_removeAt (h : labelAt forest pos = some a) (ha : p a) :
    pruneAll p (removeAt forest pos) = pruneAll p forest := by
  obtain ⟨ts, ht⟩ := labelAt_eq_some_iff.1 h
  obtain ⟨pre, post, hocc⟩ := exists_occurs ht
  clear h ht
  generalize hnode : node a ts = t at hocc
  induction hocc with
  | here pre t post =>
    subst hnode
    simp [removeAt, editAt_here, pruneAll_append, pruneAll, prune, ha]
  | inside left b us right hinside ih =>
    have ih := ih hnode
    rw [removeAt] at ih ⊢
    rw [editAt_inside _ _ _ _ _ hinside.ne_nil]
    simp [pruneAll_append, pruneAll, prune, ih]

lemma pruneAll_eq_self_of_findIn_eq_none :
    ∀ {ts : List (OrderedTree α β)}, findIn p ts = none → pruneAll p ts = ts
  | [], _ => rfl
  | t :: ts, h => by
    have htree : t.find? p = none := by
      cases ht : t.find? p with
      | none => rfl
      | some pos => simp [findIn, ht] at h
    have hrest : findIn p ts = none := by simpa [findIn, htree] using h
    rw [pruneAll, pruneAll_eq_self_of_findIn_eq_none hrest]
    cases t with
    | leaf b => rfl
    | node a us =>
      have ha : ¬ p a := by
        intro ha
        simp [find?, ha] at htree
      have hus : findIn p us = none := by simpa [find?, ha] using htree
      simp [prune, ha, pruneAll_eq_self_of_findIn_eq_none hus]

/-! ### Relabelling with a context -/

section Traverse

universe u

variable {ε : Type*} {σ α' β' : Type u}
  (enter : σ → α → Except ε (σ × α')) (ofLeaf : σ → β → Except ε β')

mutual

/-- Relabel a tree in a context, which an inner node may change for what is below it. -/
def traverse (s : σ) : OrderedTree α β → Except ε (OrderedTree α' β')
  | .node a ts => do
    let entered ← enter s a
    let us ← traverseAll entered.1 ts
    return .node entered.2 us
  | .leaf b => do
    let c ← ofLeaf s b
    return .leaf c

def traverseAll (s : σ) : List (OrderedTree α β) → Except ε (List (OrderedTree α' β'))
  | [] => .ok []
  | t :: ts => do
    let u ← traverse s t
    let us ← traverseAll s ts
    return u :: us

end

variable {enter ofLeaf}

lemma traverseAll_append (s : σ) (l₁ l₂ : List (OrderedTree α β)) :
    traverseAll enter ofLeaf s (l₁ ++ l₂) = do
      let m₁ ← traverseAll enter ofLeaf s l₁
      let m₂ ← traverseAll enter ofLeaf s l₂
      return m₁ ++ m₂ := by
  induction l₁ with
  | nil => cases h : traverseAll enter ofLeaf s l₂ <;> simp [traverseAll, h, bind, Except.bind, pure,
      Except.pure]
  | cons t l₁ ih =>
    simp [traverseAll, ih]

variable {s : σ} {m : List (OrderedTree α' β')}

lemma traverseAll_append_eq_ok :
    traverseAll enter ofLeaf s (l₁ ++ l₂) = .ok m ↔ ∃ m₁ m₂, traverseAll enter ofLeaf s l₁ = .ok m₁ ∧
      traverseAll enter ofLeaf s l₂ = .ok m₂ ∧ m₁ ++ m₂ = m := by
  simp only [traverseAll_append, ok_iffs, exists_and_left]

lemma traverseAll_cons_eq_ok :
    traverseAll enter ofLeaf s (t :: ts) = .ok m ↔ ∃ u us, traverse enter ofLeaf s t = .ok u ∧
      traverseAll enter ofLeaf s ts = .ok us ∧ u :: us = m := by
  simp only [traverseAll, ok_iffs, exists_and_left]

variable {a : α} {u : OrderedTree α' β'}

lemma traverse_node_eq_ok :
    traverse enter ofLeaf s (.node a ts) = .ok u ↔ ∃ s' a' us, enter s a = .ok (s', a') ∧
      traverseAll enter ofLeaf s' ts = .ok us ∧ .node a' us = u := by
  simp only [traverse, ok_iffs, exists_and_left, Prod.exists]

variable {us : List (OrderedTree α' β')}

lemma length_eq_of_traverseAll (h : traverseAll enter ofLeaf s ts = .ok us) :
    us.length = ts.length := by
  induction ts generalizing us with
  | nil =>
    obtain rfl : [] = us := by simpa [traverseAll] using h
    rfl
  | cons t ts ih =>
    obtain ⟨u, us', -, hus, rfl⟩ := traverseAll_cons_eq_ok.1 h
    simp [ih hus]

/-- A relabelling keeps the inner nodes of the top level. -/
lemma length_filterMap_label?_of_traverseAll (h : traverseAll enter ofLeaf s ts = .ok us) :
    (us.filterMap label?).length = (ts.filterMap label?).length := by
  induction ts generalizing us with
  | nil =>
    obtain rfl : [] = us := by simpa [traverseAll] using h
    rfl
  | cons t ts ih =>
    obtain ⟨u, us', hu, hus, rfl⟩ := traverseAll_cons_eq_ok.1 h
    cases t with
    | node a children =>
      obtain ⟨s', a', vs, -, -, rfl⟩ := traverse_node_eq_ok.1 hu
      simp [ih hus]
    | leaf b =>
      simp only [traverse, ok_iffs] at hu
      obtain ⟨c, -, rfl⟩ := hu
      simp [label?_leaf, ih hus, filterMap_cons]

variable {pos : Position} {forest' : List (OrderedTree α' β')}

/-- A relabelling keeps every tree in its place.  There is one context for the siblings there,
which below the top level an inner node has set, and to edit the siblings first is to relabel what
the edit makes of them. -/
lemma traverseAll_editAt
    (hocc : Occurs forest pos pre t post) (h : traverseAll enter ofLeaf s forest = .ok forest') :
    ∃ s' pre' t' post', traverseAll enter ofLeaf s' pre = .ok pre' ∧
      traverse enter ofLeaf s' t = .ok t' ∧ traverseAll enter ofLeaf s' post = .ok post' ∧
      Occurs forest' pos pre' t' post' ∧
      (pos.length = 1 ∧ s' = s ∨ ∃ s₀ a a', enter s₀ a = .ok (s', a')) ∧
      ∀ edit, traverseAll enter ofLeaf s (editAt edit forest pos) =
        (traverseAll enter ofLeaf s' (edit pre t post)).map
          fun siblings => editAt (fun _ _ _ => siblings) forest' pos := by
  induction hocc generalizing s forest' with
  | here pre t post =>
    obtain ⟨pre', rest, hpre, hrest, rfl⟩ := traverseAll_append_eq_ok.1 h
    obtain ⟨t', post', ht, hpost, rfl⟩ := traverseAll_cons_eq_ok.1 hrest
    rw [← length_eq_of_traverseAll hpre]
    refine ⟨s, pre', t', post', hpre, ht, hpost, .here pre' t' post', .inl ⟨rfl, rfl⟩,
      fun edit => ?_⟩
    rw [length_eq_of_traverseAll hpre, editAt_here, ← length_eq_of_traverseAll hpre]
    simp only [editAt_here]
    cases traverseAll enter ofLeaf s (edit pre t post) <;> rfl
  | inside left a ts right hinside ih =>
    obtain ⟨left', rest, hleft, hrest, rfl⟩ := traverseAll_append_eq_ok.1 h
    obtain ⟨u, right', hnode, hright, rfl⟩ := traverseAll_cons_eq_ok.1 hrest
    obtain ⟨s₁, a', us, henter, hus, rfl⟩ := traverse_node_eq_ok.1 hnode
    obtain ⟨s', pre', t', post', hpre, ht, hpost, hocc', hset, hedit⟩ := ih hus
    refine ⟨s', pre', t', post', hpre, ht, hpost, ?_, .inr ?_, fun edit => ?_⟩
    · rw [← length_eq_of_traverseAll hleft]
      exact .inside left' a' us right' hocc'
    · rcases hset with ⟨-, rfl⟩ | hset
      · exact ⟨s, a, a', henter⟩
      · exact hset
    · rw [editAt_inside _ _ _ _ _ hinside.ne_nil, ← length_eq_of_traverseAll hleft]
      simp only [editAt_inside _ _ _ _ _ hinside.ne_nil, traverseAll_append, traverseAll, traverse,
        hleft, henter, hedit edit, hright, bind, Except.bind]
      cases traverseAll enter ofLeaf s' (edit _ _ _) <;> rfl

lemma labelAt_of_traverseAll (ha : labelAt forest pos = some a)
    (h : traverseAll enter ofLeaf s forest = .ok forest') :
    ∃ s₁ s₂ a', enter s₁ a = .ok (s₂, a') ∧ labelAt forest' pos = some a' := by
  obtain ⟨ts, hts⟩ := labelAt_eq_some_iff.1 ha
  obtain ⟨pre, post, hocc⟩ := exists_occurs hts
  obtain ⟨s₁, pre', t', post', -, hnode, -, hocc', -, -⟩ := traverseAll_editAt hocc h
  obtain ⟨s₂, a', us, henter, -, rfl⟩ := traverse_node_eq_ok.1 hnode
  exact ⟨s₁, s₂, a', henter, labelAt_eq_some_iff.2 ⟨us, hocc'.treeAt_eq⟩⟩

lemma exists_of_traverseAll (h : traverseAll enter ofLeaf s ts = .ok us) {i : Nat}
    (hu : us[i]? = some u) : ∃ t, ts[i]? = some t ∧ traverse enter ofLeaf s t = .ok u := by
  induction ts generalizing us i with
  | nil =>
    obtain rfl : [] = us := by simpa [traverseAll] using h
    simp at hu
  | cons t ts ih =>
    obtain ⟨u', us', hu', hus, rfl⟩ := traverseAll_cons_eq_ok.1 h
    cases i with
    | zero =>
      obtain rfl : u' = u := by simpa using hu
      exact ⟨t, rfl, hu'⟩
    | succ i => exact ih hus hu

/-- A relabelling makes no inner node that was not there. -/
lemma exists_labelAt_of_traverseAll {a' : α'}
    (h : traverseAll enter ofLeaf s forest = .ok forest') (ha' : labelAt forest' pos = some a') :
    ∃ a, labelAt forest pos = some a := by
  induction pos generalizing forest forest' s with
  | nil => simp [labelAt, treeAt] at ha'
  | cons i pos ih =>
    obtain ⟨us, hnode⟩ := labelAt_eq_some_iff.1 ha'
    obtain ⟨u, hu, hsub⟩ := Option.bind_eq_some_iff.1 hnode
    obtain ⟨t, ht, htrav⟩ := exists_of_traverseAll h hu
    cases t with
    | leaf b =>
      simp only [traverse, ok_iffs] at htrav
      obtain ⟨c, -, rfl⟩ := htrav
      cases pos <;> simp [subtree?] at hsub
    | node b ts =>
      obtain ⟨s', b', vs, -, hvs, rfl⟩ := traverse_node_eq_ok.1 htrav
      cases pos with
      | nil => exact ⟨b, by simp [labelAt, treeAt, ht, subtree?]⟩
      | cons j pos =>
        obtain ⟨a, ha⟩ := ih hvs (labelAt_eq_some_iff.2 ⟨us, hsub⟩)
        refine ⟨a, ?_⟩
        rw [← ha]
        simp [labelAt, treeAt, ht, subtree?]

end Traverse

/-! ### Writing a forest out -/

/-- How a forest is written: what opens and closes an inner node, the context of what is inside,
and what stands for a leaf. -/
structure Printer (σ : Type*) (α : Type*) (β : Type*) (γ : Type*) where
  enter : σ → α → σ
  opening : σ → α → List γ
  closing : σ → α → List γ
  leaf : σ → β → List γ

section Print

variable {σ γ : Type*} (P : Printer σ α β γ)

mutual

def print (s : σ) : OrderedTree α β → List γ
  | .node a ts => P.opening s a ++ printAll (P.enter s a) ts ++ P.closing s a
  | .leaf b => P.leaf s b

def printAll (s : σ) : List (OrderedTree α β) → List γ
  | [] => []
  | t :: ts => print s t ++ printAll s ts

end

@[simp] lemma printAll_append (s : σ) :
    printAll P s (l₁ ++ l₂) = printAll P s l₁ ++ printAll P s l₂ := by
  induction l₁ with
  | nil => simp [printAll]
  | cons t l₁ ih => simp [printAll, ih]

lemma exists_printAll_editAt (s : σ) (hocc : Occurs forest pos pre t post) :
    ∃ s' before after, ∀ edit,
      printAll P s (editAt edit forest pos) =
        before ++ printAll P s' (edit pre t post) ++ after := by
  induction hocc generalizing s with
  | here pre t post => exact ⟨s, [], [], fun edit => by simp [editAt_here]⟩
  | inside left a ts right hinside ih =>
    obtain ⟨s', before, after, hprint⟩ := ih (P.enter s a)
    refine ⟨s', printAll P s left ++ P.opening s a ++ before,
      after ++ P.closing s a ++ printAll P s right, fun edit => ?_⟩
    rw [editAt_inside _ _ _ _ _ hinside.ne_nil]
    simp [printAll, print, hprint edit]

lemma editAt_self (hocc : Occurs forest pos pre t post) :
    editAt (fun pre t post => pre ++ t :: post) forest pos = forest := by
  induction hocc with
  | here pre t post => rw [editAt_here]
  | inside left a ts right hinside ih => rw [editAt_inside _ _ _ _ _ hinside.ne_nil, ih]

variable {P} {n : Nat}

mutual

lemma length_print_prune (hopen : ∀ s a, n ≤ (P.opening s a).length) (s : σ) :
    ∀ t : OrderedTree α β, (printAll P s (t.prune p)).length +
      (if (t.find? p).isSome then n else 0) ≤ (print P s t).length
  | .leaf b => by simp [prune, find?, printAll, print]
  | .node a ts => by
    by_cases ha : p a
    · have hlen := hopen s a
      simp [prune, find?, ha, printAll, print]
      omega
    · have ih := length_printAll_pruneAll hopen (P.enter s a) ts
      simp [prune, find?, ha, printAll, print]
      omega

/-- Pruning shortens what is written, by at least what opens a pruned node. -/
lemma length_printAll_pruneAll (hopen : ∀ s a, n ≤ (P.opening s a).length) (s : σ) :
    ∀ ts : List (OrderedTree α β), (printAll P s (pruneAll p ts)).length +
      (if (findIn p ts).isSome then n else 0) ≤ (printAll P s ts).length
  | [] => by simp [pruneAll, findIn, printAll]
  | t :: ts => by
    have htree := length_print_prune hopen s t
    have hrest := length_printAll_pruneAll hopen s ts
    have hfnd : (findIn p (t :: ts)).isSome = ((t.find? p).isSome || (findIn p ts).isSome) := by
      cases ht : t.find? p <;> simp [findIn, ht]
    rw [hfnd, pruneAll, printAll_append, length_append, printAll, length_append]
    by_cases ht : (t.find? p).isSome
    · rw [if_pos ht] at htree
      rw [if_pos (by simp [ht])]
      omega
    · simp only [ht, Bool.false_or]
      omega

end

end Print

end OrderedTree
