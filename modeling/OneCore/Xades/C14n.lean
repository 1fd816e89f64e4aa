/-
# XML canonicalisation

Exclusive and inclusive canonicalisation 1.0 without comments, as `proto/xades/c14n` writes it.
The output is given as text; its bytes are the UTF-8 encoding of it.

The nodes are processed in the order of the document (`processNode`, `processNodes`).  What is
written at an element depends on the elements around it and on the namespaces that were rendered
there, which is the context `Rendering`.  A start tag that the skip element matches is left out
with everything up to its end tag, so to canonicalise is to prune and then to print:
`processNodes_eq_printAll`.
-/
import OneCore.Xades.Document

namespace OneCore.Xades

open List OrderedTree

/-- The canonicalisation algorithms, both without comments. -/
inductive C14nMode where
  | exclusive
  | inclusive

inductive C14nError where
  | xmlParse (e : ParseError)
  | elementNotFound (what : Str)

/-! ### Escaping and rendering -/

def escapeText (s : Str) : Str :=
  s.flatMap fun c =>
    if c = '&' then "&amp;".toList
    else if c = '<' then "&lt;".toList
    else if c = '>' then "&gt;".toList
    else if c = '\r' then "&#xD;".toList
    else [c]

def escapeAttr (s : Str) : Str :=
  s.flatMap fun c =>
    if c = '&' then "&amp;".toList
    else if c = '<' then "&lt;".toList
    else if c = '"' then "&quot;".toList
    else if c = '\t' then "&#x9;".toList
    else if c = '\n' then "&#xA;".toList
    else if c = '\r' then "&#xD;".toList
    else [c]

def escapePi (s : Str) : Str :=
  s.flatMap fun c => if c = '\r' then "&#xD;".toList else [c]

structure NsDecl where
  pfx : Str
  uri : Str

structure Attr where
  nsUri : Str
  localName : Str
  qualifiedName : Str
  value : Str

def NsDecl.render (d : NsDecl) : Str :=
  if d.pfx = [] then " xmlns=\"".toList ++ escapeAttr d.uri ++ "\"".toList
  else " xmlns:".toList ++ d.pfx ++ "=\"".toList ++ escapeAttr d.uri ++ "\"".toList

def Attr.render (a : Attr) : Str :=
  " ".toList ++ a.qualifiedName ++ "=\"".toList ++ escapeAttr a.value ++ "\"".toList

/-- The order of namespace declarations: the default namespace first, then by prefix. -/
def NsDecl.le (a b : NsDecl) : Bool :=
  match a.pfx.isEmpty, b.pfx.isEmpty with
  | true, false => true
  | false, true => false
  | _, _ => a.pfx ≤ b.pfx

/-- The order of attributes: those without a namespace first, then by namespace and name. -/
def Attr.le (a b : Attr) : Bool :=
  match a.nsUri.isEmpty, b.nsUri.isEmpty with
  | true, true => a.localName ≤ b.localName
  | true, false => true
  | false, true => false
  | false, false => a.nsUri < b.nsUri ∨ a.nsUri = b.nsUri ∧ a.localName ≤ b.localName

/-! ### Namespaces -/

/-- The elements around the one that is processed, the nearest first, and the namespaces that they
rendered. -/
structure Rendering where
  ancestors : List Element
  renderedNs : List (Str × Str)

variable (ancestors : List Element)

/-- The prefix for a namespace: that of its first declaration in scope, looked for at the element
and then at each element around it. -/
def resolvePrefix (node : Element) (uri : Str) : Option Str :=
  if uri = xmlNamespace then some "xml".toList
  else (node :: node :: ancestors).findSome? fun n =>
    (n.namespaces.find? fun ns => ns.uri = uri).bind Namespace.name

def elementPrefix (node : Element) : Str :=
  (node.tagName.uri.bind (resolvePrefix ancestors node)).getD []

def qualifiedName (pfx name : Str) : Str :=
  if pfx = [] then name else pfx ++ ":".toList ++ name

def qualifiedElementName (node : Element) : Str :=
  qualifiedName (elementPrefix ancestors node) node.tagName.name

def attributePrefix (node : Element) (a : Attribute) : Str :=
  match a.uri with
  | some uri => if uri = xmlNamespace then "xml".toList
    else (resolvePrefix ancestors node uri).getD []
  | none => []

/-- The namespaces in scope, collected from the outermost element to the node. -/
def collectInscopeNamespaces (node : Element) : List (Str × Str) :=
  ((node :: ancestors).reverse.flatMap Element.namespaces).foldl
    (fun scope ns =>
      let pfx := ns.name.getD []
      if ns.uri = [] then scope.filter fun entry => entry.1 ≠ pfx
      else mapInsert pfx ns.uri scope) []

/-- The default namespace is not in scope, and an element around rendered one. -/
def undeclaresDefault (inscopeNs renderedNs : List (Str × Str)) : Bool :=
  (inscopeNs.lookup []).isNone && (renderedNs.lookup []).any fun uri => uri ≠ []

variable (mode : C14nMode)

/-- The namespace declarations of an element, in order. -/
def namespaceDecls (r : Rendering) (node : Element)
    (inscopeNs : List (Str × Str)) : List NsDecl :=
  let decls : List NsDecl :=
    match mode with
    | .exclusive =>
      let utilized := (elementPrefix r.ancestors node ::
        (node.attributes.map (attributePrefix r.ancestors node)).filter (· ≠ [])).dedup
      (utilized.filter (· ≠ "xml".toList)).filterMap fun pfx =>
        match inscopeNs.lookup pfx with
        | some uri => if r.renderedNs.lookup pfx = some uri then none else some ⟨pfx, uri⟩
        | none =>
          if pfx = [] ∧ undeclaresDefault inscopeNs r.renderedNs then some ⟨[], []⟩ else none
    | .inclusive =>
      (inscopeNs.filterMap fun (pfx, uri) =>
        if pfx = "xml".toList then none
        else if r.renderedNs.lookup pfx = some uri then none else some ⟨pfx, uri⟩) ++
      if undeclaresDefault inscopeNs r.renderedNs then [⟨[], []⟩] else []
  decls.insertionSort fun a b => a.le b

/-! ### Processing the nodes -/

/-- Which elements are left out: those with a name, and with an identifier if one is given. -/
structure SkipElement where
  uri : Str
  localName : Str
  id : Option Str

structure C14nContext where
  mode : C14nMode
  skip : Option SkipElement

def SkipElement.covers (skip : SkipElement) (node : Element) : Bool :=
  node.tagName = ⟨some skip.uri, skip.localName⟩ &&
    skip.id.all fun id => node.attribute idAttribute = some id

def skips (skip : Option SkipElement) (node : Element) : Bool :=
  skip.any fun skip => skip.covers node

def renderedAttributes (r : Rendering) (node : Element) : List Attr :=
  (node.attributes.map fun a =>
    { nsUri := a.uri.getD [], localName := a.name,
      qualifiedName := qualifiedName (attributePrefix r.ancestors node a) a.name,
      value := a.value : Attr }).insertionSort fun a b => a.le b

def startTag (r : Rendering) (node : Element) : Str :=
  "<".toList ++ qualifiedElementName r.ancestors node ++
    (namespaceDecls mode r node (collectInscopeNamespaces r.ancestors node)).flatMap
      NsDecl.render ++
    (renderedAttributes r node).flatMap Attr.render ++ ">".toList

def endTag (r : Rendering) (node : Element) : Str :=
  "</".toList ++ qualifiedElementName r.ancestors node ++ ">".toList

/-- The context inside an element: exclusive canonicalisation passes on what was rendered,
inclusive canonicalisation everything in scope. -/
def childRendering (r : Rendering) (node : Element) : Rendering where
  ancestors := node :: r.ancestors
  renderedNs :=
    let inscopeNs := collectInscopeNamespaces r.ancestors node
    match mode with
    | .exclusive => (namespaceDecls mode r node inscopeNs).foldl
        (fun rendered decl => mapInsert decl.pfx decl.uri rendered) r.renderedNs
    | .inclusive => (inscopeNs.filter fun entry => entry.1 ≠ "xml".toList).foldl
        (fun rendered entry => mapInsert entry.1 entry.2 rendered) r.renderedNs

def isWhiteSpace (c : Char) : Bool :=
  c.toNat ∈ [9, 10, 11, 12, 13, 32, 133, 160, 5760, 8232, 8233, 8239, 8287, 12288] ∨
    8192 ≤ c.toNat ∧ c.toNat ≤ 8202

def processPi (target : Str) (value : Option Str) : Str :=
  "<?".toList ++ target ++
    (match value with
      | some value => " ".toList ++ escapePi (value.dropWhile isWhiteSpace)
      | none => []) ++ "?>".toList

/-- A node that is no element, inside of one. -/
def processContent : Content → Str
  | .text value => escapeText value
  | .comment => []
  | .pi target value => processPi target value

mutual

def processNode (c : C14nContext) (r : Rendering) : Node → Str
  | .node e ts =>
    if skips c.skip e then []
    else startTag c.mode r e ++ processNodes c (childRendering c.mode r e) ts ++ endTag r e
  | .leaf content => processContent content

def processNodes (c : C14nContext) (r : Rendering) : List Node → Str
  | [] => []
  | t :: ts => processNode c r t ++ processNodes c r ts

end

/-- What is no element, outside the root element: a processing instruction is separated from the
root element by a line ending. -/
def processOuterContent (preceding following : Bool) : Content → Str
  | .pi target value =>
    (if preceding then "\n".toList else []) ++ processPi target value ++
      if following then "\n".toList else []
  | content => processContent content

/-- A child of the document, with an element before it or after it. -/
def processOuter (c : C14nContext) (preceding following : Bool) : Node → Str
  | .leaf content => processOuterContent preceding following content
  | .node e ts => processNode c ⟨[], []⟩ (.node e ts)

/-- The children of the document, after those in `before`. -/
def processRoot (c : C14nContext) (before : List Node) : List Node → Str
  | [] => []
  | t :: after =>
    processOuter c (before.any fun u => u.label?.isSome) (after.any fun u => u.label?.isSome) t ++
      processRoot c (before ++ [t]) after

def canonicalizeDoc (doc : Document) (mode : C14nMode) (skip : Option SkipElement) : Str :=
  processRoot ⟨mode, skip⟩ [] doc.nodes

def canonicalizeSubtree (doc : Document) (pos : Position) (mode : C14nMode)
    (skip : Option SkipElement) : Str :=
  match treeAt doc.nodes pos with
  | some t => processNode ⟨mode, skip⟩ ⟨ancestorsAt doc.nodes pos, []⟩ t
  | none => []

def canonicalize (xml : Markup) (mode : C14nMode) (skip : Option SkipElement) :
    Except C14nError Str := do
  let doc ← (Document.parse xml).mapError .xmlParse
  return canonicalizeDoc doc mode skip

def findById (doc : Document) (id : Str) : Option Position :=
  findIn (fun e => e.attribute idAttribute = some id) doc.nodes

def canonicalizeById (xml : Markup) (mode : C14nMode) (id : Str) (skip : Option SkipElement) :
    Except C14nError Str := do
  let doc ← (Document.parse xml).mapError .xmlParse
  let target ← okOr (findById doc id)
    (.elementNotFound ("element with Id=".toList ++ id))
  return canonicalizeSubtree doc target mode skip

def signatureName : Str := "Signature".toList

def xmldsigNs : Str := "http://www.w3.org/2000/09/xmldsig#".toList

/-- A signature, with an identifier if one is given. -/
def isSignature (signatureId : Option Str) (e : Element) : Bool :=
  e.tagName = ⟨some xmldsigNs, signatureName⟩ &&
    signatureId.all fun id => e.attribute idAttribute = some id

def findSignature (doc : Document) (signatureId : Option Str) : Option Position :=
  findIn (isSignature signatureId) doc.nodes

/-- The first element with a name among a tree and what is below it, in the tree at a position. -/
def findBelow (doc : Document) (pos : Position) (name : ExpandedName) : Option Position := do
  let t ← treeAt doc.nodes pos
  let below ← t.find? fun e => e.tagName = name
  return pos ++ below

/-- The canonical form of the first element with a name in a signature. -/
def canonicalizeSignatureSubtree (xml : Markup) (mode : C14nMode) (signatureId : Option Str)
    (childNs childName : Str) : Except C14nError Str := do
  let doc ← (Document.parse xml).mapError .xmlParse
  let sig ← okOr (findSignature doc signatureId) (.elementNotFound "ds:Signature".toList)
  let target ← okOr (findBelow doc sig ⟨some childNs, childName⟩)
    (.elementNotFound (childNs ++ ":".toList ++ childName))
  return canonicalizeSubtree doc target mode none

/-! ### Canonicalisation is printing -/

/-- Canonical text, as a way to write a tree. -/
def canonical : Printer Rendering Element Content Char where
  enter := childRendering mode
  opening := startTag mode
  closing := endTag
  leaf _ := processContent

mutual

lemma processNode_eq_printAll (c : C14nContext) (r : Rendering) :
    ∀ t : Node, processNode c r t = printAll (canonical c.mode) r (t.prune (skips c.skip))
  | .leaf content => by simp [processNode, prune, printAll, print, canonical]
  | .node e ts => by
    by_cases he : skips c.skip e
    · simp [processNode, prune, he, printAll]
    · have hts := processNodes_eq_printAll c (childRendering c.mode r e) ts
      simp [processNode, prune, he, printAll, print, hts, canonical]

lemma processNodes_eq_printAll (c : C14nContext) (r : Rendering) :
    ∀ ts : List Node,
      processNodes c r ts = printAll (canonical c.mode) r (pruneAll (skips c.skip) ts)
  | [] => rfl
  | t :: ts => by
    simp [processNodes, pruneAll, processNode_eq_printAll c r t, processNodes_eq_printAll c r ts]

end

lemma two_le_length_opening (r : Rendering) (e : Element) :
    2 ≤ ((canonical mode).opening r e).length := by
  simp [canonical, startTag]
  omega

lemma escapeText_append (s t : Str) : escapeText (s ++ t) = escapeText s ++ escapeText t :=
  flatMap_append

/-! ### The canonical form of a document -/

/-- What is written for the nodes outside the root element. -/
def outside (preceding following : Bool) (ts : List Node) : Str :=
  ts.flatMap fun t =>
    match t with
    | .leaf content => processOuterContent preceding following content
    | .node _ _ => []

variable {ts : List Node}

lemma processRoot_append (c : C14nContext) (before : List Node)
    (hts : ∀ t ∈ ts, t.label? = none) (after : List Node) :
    processRoot c before (ts ++ after) =
      outside (before.any fun u => u.label?.isSome) (after.any fun u => u.label?.isSome) ts ++
        processRoot c (before ++ ts) after := by
  induction ts generalizing before with
  | nil => simp [outside]
  | cons t ts ih =>
    have ht : t.label? = none := hts t mem_cons_self
    have hrest : ∀ u ∈ ts, u.label? = none := fun u hu => hts u (mem_cons_of_mem t hu)
    have hnone : (ts.any fun u => u.label?.isSome) = false := by
      rw [any_eq_false]
      intro u hu
      simp [hrest u hu]
    cases t with
    | node a us => simp at ht
    | leaf content =>
      simp only [cons_append, processRoot, processOuter]
      rw [ih (before ++ [OrderedTree.leaf content]) hrest]
      simp [outside, hnone]

/-- A document is canonicalised as its root element, with the text of what is outside around it. -/
lemma canonicalizeDoc_eq {doc : Document} {left right : List Node} {root : Element}
    (hnodes : doc.nodes = left ++ .node root ts :: right) (mode : C14nMode)
    (skip : Option SkipElement) :
    canonicalizeDoc doc mode skip =
      outside false true left ++ processNode ⟨mode, skip⟩ ⟨[], []⟩ (.node root ts) ++
        outside true false right := by
  obtain ⟨hleft, hright⟩ := doc.label?_eq_none_of_nodes_eq hnodes
  have htail : processRoot ⟨mode, skip⟩ (left ++ [.node root ts]) right =
      outside true false right := by
    have h := processRoot_append ⟨mode, skip⟩ (left ++ [.node root ts]) hright []
    simpa [processRoot] using h
  rw [canonicalizeDoc, hnodes, processRoot_append _ _ hleft]
  simp only [nil_append, processRoot, processOuter, htail]
  simp

def isPi : Node → Bool
  | .leaf (.pi _ _) => true
  | _ => false

/-- Outside the root element nothing is written but processing instructions, which are more than
one letter. -/
lemma outside_eq_nil (hts : ts.any isPi = false)
    (htext : ∀ v, .leaf (.text v) ∈ ts → v = []) (preceding following : Bool) :
    outside preceding following ts = [] := by
  rw [outside, flatMap_eq_nil_iff]
  intro t ht
  rw [any_eq_false] at hts
  cases t with
  | node e us => rfl
  | leaf content =>
    cases content with
    | comment => rfl
    | text v =>
      obtain rfl := htext v ht
      rfl
    | pi target value => exact absurd rfl (hts _ ht)

lemma two_le_length_outside (hts : ts.any isPi) (preceding following : Bool) :
    2 ≤ (outside preceding following ts).length := by
  obtain ⟨t, ht, hpi⟩ := any_eq_true.1 hts
  obtain ⟨left, right, rfl⟩ := append_of_mem ht
  match t, hpi with
  | .leaf (.pi target value), _ =>
    simp [outside, processOuterContent, processPi]
    omega

end OneCore.Xades
