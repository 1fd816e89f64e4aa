/-
# XML documents

The text of an XML document is given by its markup: the tree of the tokens it is made of, with the
text of every tag.  `Markup.text` is the text, and `Markup.cut` takes a node out of it: by
`exists_text_cut` the text that is left is the text without the range of the node.  Character data
on both sides of the range becomes one token, which matters where the reader looks at more than one
letter: at a line ending, and at a mark that may not occur in character data.

`Document.parse` is the reader of the canonicalisation (`roxmltree`).  It resolves the prefixes of
elements and attributes to namespaces and normalises character data.  It keeps every node in its
place: blank text outside the root element, which the reader drops, is kept as empty text.
`Document.parse_cut` says what is read of a document after a cut.
-/
import OneCore.Lib.OrderedTree
import OneCore.Model.Credential

namespace OneCore.Xades

open List OrderedTree

/-! ### The text of a document -/

/-- A letter of character data, as it is or by a reference. -/
inductive CharData where
  | raw (c : Char)
  | reference (spelling : Str) (c : Char)
deriving DecidableEq

/-- How a letter of character data is written. -/
def CharData.text : CharData → Str
  | .raw c => [c]
  | .reference spelling _ => spelling

/-- A token without content of its own. -/
inductive Token where
  | text (data : List CharData)
  | cdata (data : Str)
  | comment (data : Str)
  | pi (target : Str) (space : Str) (value : Option Str)

def Token.spelling : Token → Str
  | .text data => data.flatMap CharData.text
  | .cdata data => "<![CDATA[".toList ++ data ++ "]]>".toList
  | .comment data => "<!--".toList ++ data ++ "-->".toList
  | .pi target space value => "<?".toList ++ target ++ space ++ value.getD [] ++ "?>".toList

/-- A namespace that is bound to a name; without a name it is the default namespace. -/
structure Namespace where
  name : Option Str
  uri : Str

/-- An attribute of a tag, with its value after references are replaced. -/
structure RawAttribute where
  pfx : Str
  name : Str
  value : Str

/-- The tags of an element: what the start tag says, and the text of both of them. -/
structure Tag where
  pfx : Str
  name : Str
  /-- The namespaces that the tag declares. -/
  namespaces : List Namespace
  attributes : List RawAttribute
  startTag : Str
  /-- Empty if the start tag ends the element too. -/
  endTag : Str

abbrev MarkupNode := OrderedTree Tag Token

/-- The markup of a document after its XML declaration. -/
structure Markup where
  declaration : Str
  nodes : List MarkupNode

/-- Markup is written token by token. -/
def spelled : Printer Unit Tag Token Char where
  enter _ _ := ()
  opening _ tag := tag.startTag
  closing _ tag := tag.endTag
  leaf _ token := token.spelling

def Markup.text (xml : Markup) : Str :=
  xml.declaration ++ printAll spelled () xml.nodes

/-- The character data of a node that is nothing else. -/
def charData? : MarkupNode → Option (List CharData)
  | .leaf (.text data) => some data
  | _ => none

/-- The character data on the two sides of a seam, where there is some on both. -/
def seamOf (pre post : List MarkupNode) : Option (List CharData × List CharData) := do
  let left ← pre.getLast?.bind charData?
  let right ← post.head?.bind charData?
  return (left, right)

/-- Put two lists of nodes together, with character data at the seam in one token. -/
def joinText (pre post : List MarkupNode) : List MarkupNode :=
  match seamOf pre post with
  | some (left, right) => pre.dropLast ++ .leaf (.text (left ++ right)) :: post.tail
  | none => pre ++ post

/-- The document without the range of the node at a position. -/
def Markup.cut (xml : Markup) (pos : Position) : Markup :=
  { xml with nodes := editAt (fun pre _ post => joinText pre post) xml.nodes pos }

variable {t : MarkupNode}

lemma charData?_eq_some_iff {data : List CharData} :
    charData? t = some data ↔ t = .leaf (.text data) := by
  cases t with
  | node tag ts => simp [charData?]
  | leaf token => cases token <;> simp [charData?]

variable {pre post : List MarkupNode}

lemma seamOf_eq_some_iff {left right : List CharData} :
    seamOf pre post = some (left, right) ↔ ∃ pre₀ post₀, pre = pre₀ ++ [.leaf (.text left)] ∧
      post = .leaf (.text right) :: post₀ := by
  simp only [seamOf, Option.bind_eq_bind, Option.bind_eq_some_iff, Option.pure_def,
    Option.some.injEq, Prod.mk.injEq, charData?_eq_some_iff]
  constructor
  · rintro ⟨_, ⟨_, hpre, rfl⟩, _, ⟨_, hpost, rfl⟩, rfl, rfl⟩
    obtain ⟨pre₀, rfl⟩ := getLast?_eq_some_iff.1 hpre
    obtain ⟨post₀, rfl⟩ := head?_eq_some_iff.1 hpost
    exact ⟨pre₀, post₀, rfl, rfl⟩
  · rintro ⟨pre₀, post₀, rfl, rfl⟩
    exact ⟨left, ⟨_, by simp, rfl⟩, right, ⟨_, rfl, rfl⟩, rfl, rfl⟩

lemma joinText_of_seam (pre₀ post₀ : List MarkupNode) (left right : List CharData) :
    joinText (pre₀ ++ [.leaf (.text left)]) (.leaf (.text right) :: post₀) =
      pre₀ ++ .leaf (.text (left ++ right)) :: post₀ := by
  have hseam : seamOf (pre₀ ++ [.leaf (.text left)]) (.leaf (.text right) :: post₀) =
      some (left, right) := seamOf_eq_some_iff.2 ⟨pre₀, post₀, rfl, rfl⟩
  simp [joinText, hseam]

lemma joinText_of_seamOf_eq_none (h : seamOf pre post = none) :
    joinText pre post = pre ++ post := by
  simp [joinText, h]

lemma spelled_text_append (left right : List CharData) :
    spelled.leaf () (.text (left ++ right)) =
      spelled.leaf () (.text left) ++ spelled.leaf () (.text right) :=
  flatMap_append

lemma printAll_joinText :
    printAll spelled () (joinText pre post) = printAll spelled () (pre ++ post) := by
  cases hseam : seamOf pre post with
  | none => rw [joinText_of_seamOf_eq_none hseam]
  | some seam =>
    obtain ⟨pre₀, post₀, rfl, rfl⟩ := seamOf_eq_some_iff.1 hseam
    rewrite [joinText_of_seam]
    simp [printAll, print, spelled_text_append]

lemma filterMap_label?_joinText :
    (joinText pre post).filterMap label? = (pre ++ post).filterMap label? := by
  cases hseam : seamOf pre post with
  | none => rw [joinText_of_seamOf_eq_none hseam]
  | some seam =>
    obtain ⟨pre₀, post₀, rfl, rfl⟩ := seamOf_eq_some_iff.1 hseam
    rw [joinText_of_seam]
    simp [filterMap_cons]

variable {xml : Markup} {pos : Position}

/-- The errors of the reader that this development can tell apart. -/
inductive ParseError where
  | unknownNamespace
  | duplicatedNamespace
  | duplicatedAttribute
  | invalidCharacterData
  | unknownToken
  | noRootNode

structure ExpandedName where
  uri : Option Str
  name : Str
deriving DecidableEq

structure Attribute where
  uri : Option Str
  name : Str
  value : Str

structure Element where
  tagName : ExpandedName
  attributes : List Attribute
  /-- The namespaces in scope, those of the element itself first. -/
  namespaces : List Namespace

/-- The value of an attribute without a namespace. -/
def Element.attribute (e : Element) (name : Str) : Option Str :=
  (e.attributes.find? fun a => a.uri = none ∧ a.name = name).map Attribute.value

def idAttribute : Str := "Id".toList

/-- A node that is no element. -/
inductive Content where
  | text (value : Str)
  | comment
  | pi (target : Str) (value : Option Str)

abbrev Node := OrderedTree Element Content

/-- What the reader knows of the nodes around the one it reads. -/
structure Scope where
  namespaces : List Namespace
  /-- There is no element around. -/
  atTop : Bool

def xmlNamespace : Str := "http://www.w3.org/XML/1998/namespace".toList

/-- The namespaces in scope of an element: its own, and those around it that have another name. -/
def inheritNamespaces (own scope : List Namespace) : List Namespace :=
  own ++ scope.filter fun ns => ns.name ∉ own.map Namespace.name

def elementUri (namespaces : List Namespace) (pfx : Str) : Except ParseError (Option Str) :=
  match namespaces.find? fun ns => ns.name = if pfx = [] then none else some pfx with
  | some ns => .ok (some ns.uri)
  | none => if pfx = [] then .ok none else .error .unknownNamespace

/-- The namespace of an attribute with a prefix; the default namespace is not for attributes. -/
def attributeUri (namespaces : List Namespace) (pfx : Str) : Except ParseError (Option Str) :=
  if pfx = [] then .ok none
  else if pfx = "xml".toList then .ok (some xmlNamespace)
  else elementUri namespaces pfx

def resolveAttribute (namespaces : List Namespace) (a : RawAttribute) :
    Except ParseError Attribute := do
  let uri ← attributeUri namespaces a.pfx
  return ⟨uri, a.name, a.value⟩

def enterElement (scope : Scope) (tag : Tag) : Except ParseError (Scope × Element) := do
  ensure (tag.namespaces.map Namespace.name).Nodup .duplicatedNamespace
  let namespaces := inheritNamespaces tag.namespaces scope.namespaces
  let uri ← elementUri namespaces tag.pfx
  let attributes ← tag.attributes.mapM (resolveAttribute namespaces)
  ensure (attributes.map fun a => (a.uri, a.name)).Nodup .duplicatedAttribute
  return (⟨namespaces, false⟩, ⟨⟨uri, tag.name⟩, attributes, namespaces⟩)

/-- The text that character data stands for: a carriage return, with the line feed after it if
there is one, is read as a line feed.  The flag says whether a carriage return is just before. -/
def textValue (afterReturn : Bool) : List CharData → Str
  | [] => []
  | .reference _ c :: data => c :: textValue false data
  | .raw c :: data =>
    if c = '\r' then '\n' :: textValue true data
    else if c = '\n' ∧ afterReturn then textValue false data
    else c :: textValue false data

/-- The mark that ends a character data section and may not occur in other character data. -/
def cdataEnd : List CharData := [.raw ']', .raw ']', .raw '>']

/-- White space between the nodes outside the root element. -/
def CharData.isSpace : CharData → Bool
  | .raw c => c = ' ' ∨ c = '\t' ∨ c = '\n' ∨ c = '\r'
  | .reference _ _ => false

def readToken (scope : Scope) : Token → Except ParseError Content
  | .text data =>
    if scope.atTop then do
      -- dropped by the reader, and kept here as empty text so that no node changes its place
      ensure (data.all CharData.isSpace) .unknownToken
      return .text []
    else do
      ensure (¬ cdataEnd <:+: data) .invalidCharacterData
      return .text (textValue false data)
  | .cdata data => do
    ensure (scope.atTop = false) .unknownToken
    return .text (textValue false (data.map .raw))
  | .comment _ => .ok .comment
  | .pi target _ value => .ok (.pi target value)

/-- A document that was read: there is one element at the top level. -/
structure Document where
  nodes : List Node
  oneRoot : (nodes.filterMap label?).length = 1

def Document.parse (xml : Markup) : Except ParseError Document := do
  let nodes ← traverseAll enterElement readToken ⟨[], true⟩ xml.nodes
  if h : (nodes.filterMap label?).length = 1 then .ok ⟨nodes, h⟩
  else if nodes.filterMap label? = [] then .error .noRootNode
  else .error .unknownToken

variable {doc : Document}

lemma Document.parse_eq_ok_iff :
    Document.parse xml = .ok doc ↔
      traverseAll enterElement readToken ⟨[], true⟩ xml.nodes = .ok doc.nodes := by
  rw [Document.parse, bind_eq_ok]
  constructor
  · rintro ⟨nodes, hnodes, h⟩
    split at h
    · cases h
      exact hnodes
    · split at h <;> cases h
  · intro h
    exact ⟨doc.nodes, h, by rw [dif_pos doc.oneRoot]⟩

lemma Document.label?_eq_none_of_nodes_eq (doc : Document) {left right ts : List Node}
    {root : Element} (h : doc.nodes = left ++ .node root ts :: right) :
    (∀ t ∈ left, t.label? = none) ∧ ∀ t ∈ right, t.label? = none := by
  have hcnt := doc.oneRoot
  rw [h] at hcnt
  simp only [filterMap_append, filterMap_cons, label?_node, length_append, length_cons] at hcnt
  have hleft : left.filterMap label? = [] := length_eq_zero_iff.1 (by omega)
  have hright : right.filterMap label? = [] := length_eq_zero_iff.1 (by omega)
  exact ⟨filterMap_eq_nil_iff.1 hleft, filterMap_eq_nil_iff.1 hright⟩

/-- Text outside the root element is dropped. -/
lemma Document.text_eq_nil_of_parse
    (h : Document.parse xml = .ok doc) {v : Str} (hv : .leaf (.text v) ∈ doc.nodes) : v = [] := by
  obtain ⟨i, hi⟩ := mem_iff_getElem?.1 hv
  obtain ⟨t, -, ht⟩ := exists_of_traverseAll (Document.parse_eq_ok_iff.1 h) hi
  cases t with
  | node tag ts =>
    obtain ⟨s', a', us, -, -, hnode⟩ := traverse_node_eq_ok.1 ht
    cases hnode
  | leaf token =>
    simp only [OrderedTree.traverse, ok_iffs] at ht
    obtain ⟨content, hread, hcont⟩ := ht
    cases hcont
    cases token with
    | text data =>
      simp only [readToken, if_true, ok_iffs] at hread
      obtain ⟨-, -, htext⟩ := hread
      exact (Content.text.inj htext).symm
    | cdata data =>
      simp only [readToken, bind_eq_ok] at hread
      obtain ⟨_, hinside, -⟩ := hread
      simp at hinside
    | comment data => cases hread
    | pi target space value => cases hread

def Document.rootElement (doc : Document) : Element :=
  (doc.nodes.filterMap label?).head (by
    intro hnil
    simpa [hnil] using doc.oneRoot)

/-! ### Reading what a cut has left -/

/-- The character data before the cut ends in a carriage return and the character data after it
begins with a line feed: after the cut they are one line ending. -/
def JoinsLineEnding (left right : List CharData) : Prop :=
  left.getLast? = some (.raw '\r') ∧ right.head? = some (.raw '\n')

instance (left right : List CharData) : Decidable (JoinsLineEnding left right) :=
  inferInstanceAs (Decidable (_ ∧ _))

lemma textValue_append (b : Bool) (left right : List CharData) :
    textValue b (left ++ right) = textValue b left ++
      textValue (if left = [] then b else decide (left.getLast? = some (.raw '\r'))) right := by
  induction left generalizing b with
  | nil => simp [textValue]
  | cons c left ih =>
    -- the flag after `c` is the one that `c` leaves if nothing follows it
    have hflag : ∀ b', (left = [] → b' = decide (c = .raw '\r')) →
        textValue b' (left ++ right) = textValue b' left ++
          textValue (decide ((c :: left).getLast? = some (.raw '\r'))) right := by
      intro b' hb'
      rw [ih b']
      cases left with
      | nil => simp [hb' rfl]
      | cons d left => simp
    rw [if_neg (cons_ne_nil c left)]
    cases c with
    | reference spelling c =>
      simp only [cons_append, textValue]
      rw [hflag false (by simp)]
    | raw c =>
      by_cases hc : c = '\r'
      · subst hc
        simp only [cons_append, textValue, if_true]
        rw [hflag true (by simp)]
      · have hfalse : left = [] → false = decide (CharData.raw c = .raw '\r') := by simp [hc]
        by_cases hn : c = '\n' ∧ b = true
        · simp only [cons_append, textValue, if_neg hc, if_pos hn]
          rw [hflag false hfalse]
        · simp only [cons_append, textValue, if_neg hc, if_neg hn]
          rw [hflag false hfalse]

lemma textValue_false_eq (data : List CharData) :
    textValue false data =
      (if data.head? = some (.raw '\n') then ['\n'] else []) ++ textValue true data := by
  cases data with
  | nil => simp [textValue]
  | cons c data =>
    cases c with
    | reference spelling c => simp [textValue]
    | raw c =>
      by_cases hn : c = '\n'
      · subst hn
        simp [textValue]
      · simp [textValue, hn]

/-- Joined character data is read as the two parts are, unless a line ending is joined: then one
line feed is missing. -/
lemma textValue_join (left right : List CharData) :
    ∃ rest, textValue false (left ++ right) = textValue false left ++ rest ∧
      textValue false right = (if JoinsLineEnding left right then ['\n'] else []) ++ rest := by
  rw [textValue_append]
  by_cases hleft : left.getLast? = some (.raw '\r')
  · have hne : left ≠ [] := by
      rintro rfl
      simp at hleft
    refine ⟨textValue true right, by simp [hne, hleft], ?_⟩
    rw [textValue_false_eq]
    simp [JoinsLineEnding, hleft]
  · refine ⟨textValue false right, by simp [hleft], ?_⟩
    simp [JoinsLineEnding, hleft]

/-- The character data on the two sides of a node, where there is some on both. -/
def Markup.seam (xml : Markup) (pos : Position) : Option (List CharData × List CharData) :=
  (siblingsAt xml.nodes pos).bind fun siblings => seamOf siblings.1 siblings.2.2

/-- A cut makes no mark that ends a character data section. -/
def Markup.StaysWellFormed (xml : Markup) (pos : Position) : Prop :=
  ∀ seam ∈ xml.seam pos, ¬ cdataEnd <:+: seam.1 ++ seam.2

/-- A cut joins no line ending. -/
def Markup.KeepsLineEndings (xml : Markup) (pos : Position) : Prop :=
  ∀ seam ∈ xml.seam pos, ¬ JoinsLineEnding seam.1 seam.2

instance (xml : Markup) (pos : Position) : Decidable (xml.StaysWellFormed pos) :=
  inferInstanceAs (Decidable (∀ seam ∈ xml.seam pos, ¬ cdataEnd <:+: seam.1 ++ seam.2))

instance (xml : Markup) (pos : Position) : Decidable (xml.KeepsLineEndings pos) :=
  inferInstanceAs (Decidable (∀ seam ∈ xml.seam pos, ¬ JoinsLineEnding seam.1 seam.2))

/-- What becomes of the siblings around a node when the node is cut out: nothing, or the text on
both sides becomes one, without the letters `lost` at the start of the text after the node. -/
def Rejoined (lost : Str) (pre post siblings : List Node) : Prop :=
  (lost = [] ∧ siblings = pre ++ post) ∨
    ∃ pre₀ before after post₀, pre = pre₀ ++ [.leaf (.text before)] ∧
      post = .leaf (.text (lost ++ after)) :: post₀ ∧
      siblings = pre₀ ++ .leaf (.text (before ++ after)) :: post₀

/-- The letters of the document that are lost when a node is cut out. -/
def Markup.lost (xml : Markup) (pos : Position) : Str :=
  if xml.KeepsLineEndings pos then [] else ['\n']

variable {scope : Scope} {e : Element}

lemma traverse_text (h : scope.atTop = false) (data : List CharData) :
    traverse enterElement readToken scope (.leaf (.text data)) =
      if cdataEnd <:+: data then .error .invalidCharacterData
      else .ok (.leaf (.text (textValue false data))) := by
  by_cases hend : cdataEnd <:+: data
  · rw [if_pos hend]
    simp [OrderedTree.traverse, readToken, h, ensure, hend, bind, Except.bind]
  · rw [if_neg hend]
    simp [OrderedTree.traverse, readToken, h, ensure, hend, bind, Except.bind, pure, Except.pure]

/-- Inside an element, the nodes that are left after a cut are read as before, and the text around
the cut is read as one. -/
lemma traverseAll_joinText (htop : scope.atTop = false)
    {pre' post' : List Node} (hpre : traverseAll enterElement readToken scope pre = .ok pre')
    (hpost : traverseAll enterElement readToken scope post = .ok post') :
    if ∀ seam ∈ seamOf pre post, ¬ cdataEnd <:+: seam.1 ++ seam.2 then
      ∃ siblings, traverseAll enterElement readToken scope (joinText pre post) = .ok siblings ∧
        Rejoined (if ∀ seam ∈ seamOf pre post, ¬ JoinsLineEnding seam.1 seam.2 then [] else ['\n'])
          pre' post' siblings
    else traverseAll enterElement readToken scope (joinText pre post) =
      .error .invalidCharacterData := by
  cases hseam : seamOf pre post with
  | none =>
    rw [if_pos (by simp), joinText_of_seamOf_eq_none hseam]
    exact ⟨pre' ++ post', traverseAll_append_eq_ok.2 ⟨pre', post', hpre, hpost, rfl⟩,
      .inl ⟨rfl, rfl⟩⟩
  | some seam =>
    obtain ⟨left, right⟩ := seam
    obtain ⟨pre₀, post₀, rfl, rfl⟩ := seamOf_eq_some_iff.1 hseam
    obtain ⟨pre₀', end', hpre₀, hend', rfl⟩ := traverseAll_append_eq_ok.1 hpre
    obtain ⟨head, post₀', hhead, hpost₀, rfl⟩ := traverseAll_cons_eq_ok.1 hpost
    obtain ⟨last, none', hlast, hnone, rfl⟩ := traverseAll_cons_eq_ok.1 hend'
    obtain rfl : [] = none' := by simpa [traverseAll] using hnone
    rw [traverse_text htop] at hlast hhead
    split at hlast
    · cases hlast
    split at hhead
    · cases hhead
    cases hlast
    cases hhead
    rw [joinText_of_seam, traverseAll_append, hpre₀]
    simp only [Option.mem_def, Option.some.injEq, forall_eq', traverseAll, traverse_text htop,
      hpost₀]
    split
    · refine ⟨_, rfl, .inr ?_⟩
      obtain ⟨rest, hjnd, hright⟩ := textValue_join left right
      refine ⟨pre₀', textValue false left, rest, post₀', rfl, ?_, by rw [hjnd]⟩
      rw [hright]
      by_cases hline : JoinsLineEnding left right <;> simp [hline]
    · next hend =>
      rw [if_pos (not_not.1 hend)]
      rfl

/-- A node inside the root element can be cut out without harm to the rest of the document, unless
the character data around it then has a mark that it may not have. -/
lemma Document.parse_cut (h : Document.parse xml = .ok doc) (ht : treeAt xml.nodes pos = some t)
    (hpos : 2 ≤ pos.length) :
    ∃ pre t' post, Occurs doc.nodes pos pre t' post ∧
      if xml.StaysWellFormed pos then
        ∃ rest siblings, Document.parse (xml.cut pos) = .ok rest ∧
          rest.nodes = editAt (fun _ _ _ => siblings) doc.nodes pos ∧
          Rejoined (xml.lost pos) pre post siblings
      else Document.parse (xml.cut pos) = .error .invalidCharacterData := by
  obtain ⟨pre, post, hocc⟩ := exists_occurs ht
  obtain ⟨scope, pre', t', post', hpre, -, hpost, hocc', hset, hedit⟩ :=
    traverseAll_editAt hocc (Document.parse_eq_ok_iff.1 h)
  have htop : scope.atTop = false := by
    rcases hset with ⟨hlen, -⟩ | ⟨s₀, tag, e, henter⟩
    · omega
    · simp only [enterElement, ok_iffs] at henter
      obtain ⟨_, -, _, -, _, -, _, -, hscope⟩ := henter
      rw [← (Prod.mk.inj hscope).1]
  have hseam : xml.seam pos = seamOf pre post := by simp [Markup.seam, hocc.siblingsAt_eq]
  have hread := hedit fun pre _ post => joinText pre post
  refine ⟨pre', t', post', hocc', ?_⟩
  have hjoin := traverseAll_joinText htop hpre hpost
  simp only [Markup.StaysWellFormed, Markup.lost, Markup.KeepsLineEndings, hseam]
  split
  · next hformed =>
    rw [if_pos hformed] at hjoin
    obtain ⟨siblings, hsibl, hrejo⟩ := hjoin
    rw [hsibl] at hread
    refine ⟨⟨editAt (fun _ _ _ => siblings) doc.nodes pos, ?_⟩, siblings,
      Document.parse_eq_ok_iff.2 hread, rfl, hrejo⟩
    rw [hocc'.filterMap_label?_editAt hpos]
    exact doc.oneRoot
  · next hformed =>
    rw [if_neg hformed] at hjoin
    rw [hjoin] at hread
    rw [Document.parse]
    simp only [Markup.cut]
    rw [hread]
    rfl

/-- Without its root element, a document is not well-formed. -/
lemma Document.parse_cut_root {i : Nat} (h : Document.parse xml = .ok doc)
    (he : labelAt doc.nodes [i] = some e) (rest : Document) :
    Document.parse (xml.cut [i]) ≠ .ok rest := by
  intro hrest
  rw [Document.parse_eq_ok_iff] at h hrest
  obtain ⟨declaration, nodes⟩ := xml
  obtain ⟨tag, htag⟩ := exists_labelAt_of_traverseAll h he
  obtain ⟨ts, ht⟩ := labelAt_eq_some_iff.1 htag
  obtain ⟨pre, post, hocc⟩ := exists_occurs ht
  -- the only element of the top level is cut out
  have hcnt := length_filterMap_label?_of_traverseAll h
  have hcnt' := length_filterMap_label?_of_traverseAll hrest
  rw [doc.oneRoot] at hcnt
  rw [rest.oneRoot, Markup.cut] at hcnt'
  cases hocc with
  | inside left a us right h => exact absurd rfl h.ne_nil
  | here pre t post =>
    simp only [append_eq, editAt_here, filterMap_label?_joinText] at hcnt'
    simp only [append_eq, filterMap_append, filterMap_cons, label?_node, length_append,
      length_cons] at hcnt hcnt'
    omega

/-! ### Tags and elements -/

/-- The element that is read for a tag: it has the local name of the tag, and its attributes are
those of the tag with their namespaces. -/
lemma Document.exists_element {tag : Tag}
    (h : Document.parse xml = .ok doc) (htag : labelAt xml.nodes pos = some tag) :
    ∃ e namespaces, labelAt doc.nodes pos = some e ∧ e.tagName.name = tag.name ∧
      tag.attributes.mapM (resolveAttribute namespaces) = .ok e.attributes := by
  obtain ⟨scope, scope', e, henter, he⟩ :=
    labelAt_of_traverseAll htag (Document.parse_eq_ok_iff.1 h)
  simp only [enterElement, ok_iffs] at henter
  obtain ⟨_, -, uri, -, attributes, hattr, _, -, heq⟩ := henter
  obtain ⟨-, rfl⟩ := Prod.mk.inj heq
  exact ⟨_, _, he, rfl, hattr⟩

lemma exists_rawAttribute {namespaces : List Namespace} {raw : List RawAttribute}
    (h : raw.mapM (resolveAttribute namespaces) = .ok e.attributes) {name value : Str}
    (hval : e.attribute name = some value) : ∃ a ∈ raw, a.name = name ∧ a.value = value := by
  obtain ⟨a, ha, rfl⟩ := Option.map_eq_some_iff.1 hval
  have hname : a.uri = none ∧ a.name = name := by simpa using find?_some ha
  obtain ⟨r, hr, hrsv⟩ :=
    (mapM_eq_ok.1 h).exists_of_mem_right (mem_of_find?_eq_some ha)
  simp only [resolveAttribute, ok_iffs] at hrsv
  obtain ⟨uri, -, rfl⟩ := hrsv
  exact ⟨r, hr, hname.2, rfl⟩

end OneCore.Xades
