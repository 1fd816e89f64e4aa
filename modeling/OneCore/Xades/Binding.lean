/-
# What the content and the signed properties are bound to

A reference to the whole document with the enveloped-signature transform has the digest of the
document without its signature, and a reference of the signed-properties type has the digest of
the signed properties.  The values that are used come from elsewhere: the content from the text
after the first signature is cut out, the signing time and the digest of the certificate from a
descendant of the first signature.

`content_and_properties_bound_iff` says when they are what was digested.  The transform leaves out every
`ds:Signature` with the identifier, the cut only the first, and where they leave out the same
element the text around it must not become something else.  The signed properties must be the
first element of the document with the identifier that the reference names.
-/
import OneCore.Xades.Wrapping

namespace OneCore.Xades

open OrderedTree Option Document

/-! ### References of a trusted list -/

def rootId (doc : Document) : Option Str := doc.rootElement.attribute idAttribute

def isWholeDocumentReference (uri : Str) (rootId : Option Str) : Bool :=
  uri = [] || rootId.any fun id => uri = '#' :: id

inductive FetchError where
  | invalidSignature (msg : Str)

/-- The signature of a trusted list has to cover the whole document and its signed properties. -/
def assertTslSignaturePolicy (verified : XAdESVerified) (rootId : Option Str) (leeway : Int)
    (now : Timestamp) : Except FetchError Unit := do
  ensure (verified.signingTime ≤ now + leeway)
    (.invalidSignature "TSL signing time is in the future".toList)
  ensure (verified.references.any fun r =>
      isWholeDocumentReference r.uri rootId && r.transforms.any fun t => t = .envelopedSignature)
    (.invalidSignature "TSL signature does not cover the whole document".toList)
  ensure (verified.references.any fun r => r.type = some signedPropertiesType)
    (.invalidSignature "TSL signature does not cover the SignedProperties".toList)

variable (xml : Markup)

/-- A reference to the whole document without its signature. -/
def CoversDocument (r : Reference) : Prop :=
  (∃ doc, parse xml = .ok doc ∧ isWholeDocumentReference r.uri (rootId doc)) ∧
    .envelopedSignature ∈ r.transforms.getD []

def CoversProperties (r : Reference) : Prop := r.type = some signedPropertiesType

variable {doc : Document}

lemma exists_references_of_policy {Key : Type} {env : Environment Key}
    {node : Position} {sig : Signature} {verified : XAdESVerified}
    {leeway : Int} {now : Timestamp} (h : Accepted env xml doc node sig verified)
    (hpolicy : assertTslSignaturePolicy verified (rootId doc) leeway now = .ok ()) :
    (∃ r ∈ sig.signedInfo.references, CoversDocument xml r) ∧
      ∃ r ∈ sig.signedInfo.references, CoversProperties r := by
  simp only [assertTslSignaturePolicy, ok_iffs, h.references, List.any_map, List.any_eq_true,
    Function.comp_apply, Bool.and_eq_true, decide_eq_true_eq] at hpolicy
  obtain ⟨_, -, _, ⟨r, hr, hwhole, t, ht, rfl⟩, r', hr', htype⟩ := hpolicy
  exact ⟨⟨r, hr, ⟨doc, h.parsed, hwhole⟩, ht⟩, r', hr', htype⟩

/-! ### What is bound, and when -/

/-- The canonical form of the text that the content is deserialised from is the text whose digest
was checked for the reference. -/
def ContentBound (sig : Signature) (r : Reference) : Prop :=
  ∃ doc node exclusion mode text, parse xml = .ok doc ∧
    findSignature doc none = some node ∧
    interpretRefTransforms (r.transforms.getD []) sig.signedInfo.canonicalizationMethod =
      .ok (exclusion, mode) ∧
    digestedText xml r sig.id sig.signedInfo.canonicalizationMethod = .ok text ∧
    canonicalize (xml.cut node) mode none = .ok text

/-- The element whose digest is checked for a reference to a part of a document. -/
def digestedElement (doc : Document) (uri : Str) : Option Position :=
  match uri with
  | [] => none
  | c :: id => if c = '#' then findById doc id else none

/-- The signed properties are read from the element whose digest was checked for the reference. -/
def PropertiesBound (sig : Signature) (r : Reference) : Prop :=
  ∃ doc node read exclusion mode, parse xml = .ok doc ∧
    findSignature doc none = some node ∧
    readPosition xml node signedPropertiesPath = some read ∧
    digestedElement doc r.uri = some read ∧
    interpretRefTransforms (r.transforms.getD []) sig.signedInfo.canonicalizationMethod =
      .ok (exclusion, mode) ∧
    digestedText xml r sig.id sig.signedInfo.canonicalizationMethod =
      .ok (canonicalizeSubtree doc read mode (skipOf exclusion sig.id))

/-- The first signature has an identifier without a namespace. -/
def HasPlainId : Prop :=
  ∃ doc node e id, parse xml = .ok doc ∧ findSignature doc none = some node ∧
    labelAt doc.nodes node = some e ∧ e.attribute idAttribute = some id

/-- The first signature has an identifier without a namespace, it is inside the root element, no
other signature outside of it has the identifier, and to cut it out neither makes a mark that may
not occur in character data nor joins a line ending; and if the reference names the root element,
there are no processing instructions outside of it. -/
def CutsCleanly (r : Reference) : Prop :=
  ∃ doc node e id, parse xml = .ok doc ∧ findSignature doc none = some node ∧
    labelAt doc.nodes node = some e ∧ e.attribute idAttribute = some id ∧
    2 ≤ node.length ∧
    findIn (isSignature (some id)) (removeAt doc.nodes node) = none ∧
    xml.StaysWellFormed node ∧ xml.KeepsLineEndings node ∧
    (r.uri = [] ∨ doc.nodes.any isPi = false)

/-- The reference names an identifier that the signed properties have without a namespace, and no
element before them has it. -/
def NamesFirst (r : Reference) : Prop :=
  ∃ doc node read e id, parse xml = .ok doc ∧ findSignature doc none = some node ∧
    readPosition xml node signedPropertiesPath = some read ∧ r.uri = '#' :: id ∧
    labelAt doc.nodes read = some e ∧ e.attribute idAttribute = some id ∧
    ∀ q other, labelAt doc.nodes q = some other → other.attribute idAttribute = some id → ¬ q < read

/-! ### The text after the cut and the text that is digested -/

lemma processNode_none (mode : C14nMode) (r : Rendering) (t : Node) :
    processNode ⟨mode, none⟩ r t = printAll (canonical mode) r [t] := by
  have hnone : findIn (skips none) [t] = none :=
    findIn_eq_none_iff.2 fun q e _ => by simp [skips]
  have hprune := pruneAll_eq_self_of_findIn_eq_none hnone
  rw [processNode_eq_printAll]
  simpa [pruneAll] using congrArg (printAll (canonical mode) r) hprune

lemma exists_printAll_rejoined {lost : Str} {pre post siblings : List Node}
    (h : Rejoined lost pre post siblings) (mode : C14nMode) (r : Rendering) :
    ∃ before after, printAll (canonical mode) r (pre ++ post) =
        before ++ escapeText lost ++ after ∧
      printAll (canonical mode) r siblings = before ++ after := by
  rcases h with ⟨rfl, rfl⟩ | ⟨pre₀, left, right, post₀, rfl, rfl, rfl⟩
  · exact ⟨printAll (canonical mode) r (pre ++ post), [], by simp [escapeText], by simp⟩
  · refine ⟨printAll (canonical mode) r pre₀ ++ escapeText left,
      escapeText right ++ printAll (canonical mode) r post₀, ?_, ?_⟩
    · simp [printAll, print, canonical, processContent, escapeText_append]
    · simp [printAll, print, canonical, processContent, escapeText_append]

section Cut

variable {skip : Option SkipElement} {e : Element} {ts us pre post siblings : List Node}
  {pos : Position} {lost : Str} (mode : C14nMode) (r : Rendering) (root : Element)
  (hocc : Occurs ts pos pre (.node e us) post) (he : skips skip e) (hjnd : Rejoined lost pre post siblings)

include hocc he hjnd

/-- The canonical form of an element after a cut, against that of the element with the skipped
elements left out: the latter lacks every other skipped element, the former what was lost. -/
lemma content_against_digested :
    ∃ before after,
      processNode ⟨mode, none⟩ r (.node root (editAt (fun _ _ _ => siblings) ts pos)) =
        before ++ after ∧
      processNode ⟨mode, skip⟩ r (.node root ts) =
        printAll (canonical mode) r (pruneAll (skips skip) [.node root (removeAt ts pos)]) ∧
      printAll (canonical mode) r [.node root (removeAt ts pos)] =
        before ++ escapeText lost ++ after := by
  -- the element alone is a forest, and the cut is an edit of it
  have hforest : Occurs [.node root ts] (0 :: pos) pre (.node e us) post :=
    .inside [] root ts [] hocc
  have hedit : ∀ edit, editAt edit [.node root ts] (0 :: pos) = [.node root (editAt edit ts pos)] :=
    fun edit => editAt_inside edit [] root ts [] hocc.ne_nil
  obtain ⟨s, before, after, hprint⟩ := exists_printAll_editAt (canonical mode) r hforest
  obtain ⟨x, y, hboth, hsibl⟩ := exists_printAll_rejoined hjnd mode s
  refine ⟨before ++ x, y ++ after, ?_, ?_, ?_⟩
  · rw [processNode_none, ← hedit, hprint, hsibl]
    simp
  · have hlab : labelAt [.node root ts] (0 :: pos) = some e :=
      labelAt_eq_some_iff.2 ⟨us, hforest.treeAt_eq⟩
    have hprune := pruneAll_removeAt hlab he
    rw [removeAt, hedit] at hprune
    rw [processNode_eq_printAll]
    simpa [pruneAll, removeAt] using congrArg (printAll (canonical mode) r) hprune.symm
  · have hrmd := hprint fun pre _ post => pre ++ post
    rw [hedit, hboth] at hrmd
    rw [removeAt, hrmd]
    simp

variable (hlost : lost = [] ∨ lost = ['\n'])

include hlost

lemma length_digested_le :
    (processNode ⟨mode, skip⟩ r (.node root ts)).length ≤
      (processNode ⟨mode, none⟩ r
        (.node root (editAt (fun _ _ _ => siblings) ts pos))).length + 1 := by
  obtain ⟨before, after, hcont, hdige, hrmd⟩ :=
    content_against_digested mode r root hocc he hjnd
  have hlen := length_printAll_pruneAll (p := skips skip) (two_le_length_opening mode) r
    [.node root (removeAt ts pos)]
  have hone : (escapeText lost).length ≤ 1 := by rcases hlost with rfl | rfl <;> decide
  rw [hdige, hcont]
  rw [hrmd] at hlen
  simp only [List.length_append] at hlen ⊢
  omega

/-- The content is what is digested exactly if no other element is skipped and no letter lost. -/
lemma content_eq_digested_iff :
    processNode ⟨mode, none⟩ r (.node root (editAt (fun _ _ _ => siblings) ts pos)) =
        processNode ⟨mode, skip⟩ r (.node root ts) ↔
      findIn (skips skip) [.node root (removeAt ts pos)] = none ∧ lost = [] := by
  obtain ⟨before, after, hcont, hdige, hrmd⟩ :=
    content_against_digested mode r root hocc he hjnd
  have hlen := length_printAll_pruneAll (p := skips skip) (two_le_length_opening mode) r
    [.node root (removeAt ts pos)]
  rw [hcont, hdige]
  rw [hrmd] at hlen
  simp only [List.length_append] at hlen
  constructor
  · intro heq
    rw [← heq, List.length_append] at hlen
    -- an element that is skipped costs at least two letters, and a line ending is one letter
    have hone : (escapeText lost).length ≤ 1 := by rcases hlost with rfl | rfl <;> decide
    have hfnd : findIn (skips skip) [.node root (removeAt ts pos)] = none := by
      by_contra hne
      rw [if_pos (isSome_iff_ne_none.2 hne)] at hlen
      omega
    rw [pruneAll_eq_self_of_findIn_eq_none hfnd, hrmd] at heq
    refine ⟨hfnd, hlost.resolve_right fun hnewl => ?_⟩
    have hleng := congrArg List.length heq
    simp only [hnewl, List.length_append] at hleng
    have hescape : (escapeText ['\n']).length = 1 := by decide
    omega
  · rintro ⟨hfnd, rfl⟩
    rw [pruneAll_eq_self_of_findIn_eq_none hfnd, hrmd]
    simp [escapeText]

end Cut

/-! ### What a reference to the document digests -/

variable {exclusion : Option SignatureExclusion} {mode : C14nMode}

/-- A chain of transforms that is understood and has the enveloped-signature transform leaves out
the signatures with the identifier. -/
lemma exclusion_eq_byId {transforms : List Transform} {signedInfoC14n : Str}
    (hmem : .envelopedSignature ∈ transforms)
    (h : interpretRefTransforms transforms signedInfoC14n = .ok (exclusion, mode)) :
    exclusion = some .byId := by
  unfold interpretRefTransforms at h
  split at h
  case h_1 => simp at hmem
  case h_2 => simp at hmem
  case h_3 => simp at hmem
  case h_4 => cases h; rfl
  case h_5 => cases h; rfl
  case h_6 => simp at hmem
  case h_7 => cases h

variable {root : Element} {left right ts : List Node}

lemma Document.rootElement_eq
    (hnodes : doc.nodes = left ++ .node root ts :: right) : doc.rootElement = root := by
  obtain ⟨hleft, -⟩ := doc.label?_eq_none_of_nodes_eq hnodes
  have hlabels : doc.nodes.filterMap label? = root :: right.filterMap label? := by
    rw [hnodes, List.filterMap_append, List.filterMap_eq_nil_iff.2 hleft]
    simp
  simp [rootElement, hlabels]

lemma findById_eq_root {id : Str} (hnodes : doc.nodes = left ++ .node root ts :: right)
    (hid : root.attribute idAttribute = some id) : findById doc id = some [left.length] := by
  obtain ⟨hleft, -⟩ := doc.label?_eq_none_of_nodes_eq hnodes
  rw [findById, hnodes]
  clear hnodes
  induction left with
  | nil => simp [findIn, find?, hid]
  | cons t left ih =>
    have ht : t.label? = none := hleft t List.mem_cons_self
    cases t with
    | node a us => simp at ht
    | leaf content =>
      simp [findIn, find?, ih fun u hu => hleft u (List.mem_cons_of_mem _ hu), next]

/-- A reference to the whole document is a reference to the document or to its root element. -/
lemma digestedText_of_whole {xml : Markup} {reference : Reference}
    {c14n : Str} (signatureId : Option Str)
    (hdoc : parse xml = .ok doc) (hnodes : doc.nodes = left ++ .node root ts :: right)
    (hwhole : isWholeDocumentReference reference.uri (rootId doc))
    (hchain : interpretRefTransforms (reference.transforms.getD []) c14n =
      .ok (exclusion, mode)) :
    digestedText xml reference signatureId c14n =
      .ok (if reference.uri = [] then canonicalizeDoc doc mode (skipOf exclusion signatureId)
        else processNode ⟨mode, skipOf exclusion signatureId⟩ ⟨[], []⟩ (.node root ts)) := by
  simp only [digestedText, hchain]
  by_cases hemp : reference.uri = []
  · simp only [hemp, if_true, canonicalizeUri, canonicalize, hdoc]
    rfl
  · simp only [isWholeDocumentReference, hemp, decide_false, Bool.false_or, any_eq_true,
      decide_eq_true_eq] at hwhole
    obtain ⟨id, hroot, huri⟩ := hwhole
    rw [rootId, rootElement_eq hnodes] at hroot
    have hfnd := findById_eq_root hnodes hroot
    have hsubt : canonicalizeSubtree doc [left.length] mode (skipOf exclusion signatureId) =
        processNode ⟨mode, skipOf exclusion signatureId⟩ ⟨[], []⟩ (.node root ts) := by
      simp [canonicalizeSubtree, hnodes, treeAt, subtree?, ancestorsAt]
    have hbyId : canonicalizeById xml mode id (skipOf exclusion signatureId) =
        .ok (processNode ⟨mode, skipOf exclusion signatureId⟩ ⟨[], []⟩ (.node root ts)) := by
      simp only [canonicalizeById, hdoc, bind_eq_ok, mapError_eq_ok, okOr_eq_ok]
      exact ⟨doc, rfl, [left.length], hfnd, by rw [hsubt]; rfl⟩
    rw [if_neg hemp, huri]
    simp only [canonicalizeUri, if_true, ok_iffs]
    exact ⟨(exclusion, mode), rfl, hbyId⟩

/-! ### The documents whose content and properties are bound -/

variable {pos : Position}

lemma Markup.lost_eq_nil_iff : xml.lost pos = [] ↔ xml.KeepsLineEndings pos := by
  rw [Markup.lost]
  split <;> simp_all

lemma Markup.lost_eq (pos : Position) : xml.lost pos = [] ∨ xml.lost pos = ['\n'] := by
  rw [Markup.lost]
  split <;> simp

section Bound

variable {Key : Type} {env : Environment Key} {xml : Markup} {node : Position}
  {sig : Signature} {verified : XAdESVerified} {r : Reference}

lemma findIn_removeAt_eq_none_iff
    (hnodes : doc.nodes = left ++ .node root ts :: right) (hpos : pos ≠ []) (p : Element → Bool) :
    findIn p (removeAt doc.nodes (left.length :: pos)) = none ↔
      findIn p [.node root (removeAt ts pos)] = none := by
  obtain ⟨hleft, hright⟩ := doc.label?_eq_none_of_nodes_eq hnodes
  have hrmd : removeAt doc.nodes (left.length :: pos) =
      left ++ ([.node root (removeAt ts pos)] ++ right) := by
    rw [hnodes, removeAt, editAt_inside _ left root ts right hpos]
    rfl
  rw [hrmd, findIn_append_eq_none_iff, findIn_append_eq_none_iff]
  have hnone := findIn_eq_none_of_label? (p := p) hleft
  have hnone' := findIn_eq_none_of_label? (p := p) hright
  simp [hnone, hnone']

/-- The canonical form of what is left after the signature is cut out of the root element is what
is digested, exactly if the cut leaves out nothing less and nothing more. -/
lemma canonicalizeDoc_cut_eq_iff {pre post siblings us : List Node} {e : Element} {rest : Document}
    {skip : Option SkipElement} {lost : Str}
    (hdoc : parse xml = .ok doc) (hnodes : doc.nodes = left ++ .node root ts :: right)
    (hocc : Occurs ts pos pre (.node e us) post) (he : skips skip e)
    (hrest : rest.nodes = editAt (fun _ _ _ => siblings) doc.nodes (left.length :: pos))
    (hjnd : Rejoined lost pre post siblings) (hlost : lost = [] ∨ lost = ['\n'])
    (uri : Str) (mode : C14nMode) :
    canonicalizeDoc rest mode none =
        (if uri = [] then canonicalizeDoc doc mode skip
          else processNode ⟨mode, skip⟩ ⟨[], []⟩ (.node root ts)) ↔
      findIn (skips skip) (removeAt doc.nodes (left.length :: pos)) = none ∧ lost = [] ∧
        (uri = [] ∨ doc.nodes.any isPi = false) := by
  have hrest' : rest.nodes =
      left ++ .node root (editAt (fun _ _ _ => siblings) ts pos) :: right := by
    rw [hrest, hnodes, editAt_inside _ left root ts right hocc.ne_nil]
  have hroot := content_eq_digested_iff mode ⟨[], []⟩ root hocc he hjnd hlost
  rw [findIn_removeAt_eq_none_iff hnodes hocc.ne_nil, canonicalizeDoc_eq hrest',
    canonicalizeDoc_eq hnodes]
  by_cases huri : uri = []
  · simp [huri, hroot]
  · rw [if_neg huri]
    by_cases hpi : doc.nodes.any isPi
    · -- a processing instruction is longer than what can be lost
      have hlen := length_digested_le mode ⟨[], []⟩ root hocc he hjnd hlost
      have hlong : 2 ≤ (outside false true left).length + (outside true false right).length := by
        rw [hnodes, List.any_append, List.any_cons, Bool.or_eq_true, Bool.or_eq_true] at hpi
        rcases hpi with hleft | hnode | hright
        · have := two_le_length_outside hleft false true
          omega
        · cases hnode
        · have := two_le_length_outside hright true false
          omega
      refine ⟨fun heq => ?_, fun h => by simp [huri, hpi] at h⟩
      have hleng := congrArg List.length heq
      simp only [List.length_append] at hleng
      omega
    · have hnone : doc.nodes.any isPi = false := by simpa using hpi
      have htext := fun v => text_eq_nil_of_parse hdoc (v := v)
      rw [hnodes, List.any_append, List.any_cons, Bool.or_eq_false_iff, Bool.or_eq_false_iff]
        at hnone
      rw [hnodes] at htext
      rw [outside_eq_nil hnone.1 fun v hv => htext v (List.mem_append_left _ hv),
        outside_eq_nil hnone.2.2 fun v hv =>
          htext v (List.mem_append_right _ (List.mem_cons_of_mem _ hv)),
        List.nil_append, List.append_nil, hroot]
      simp [hpi]

variable {id : Str}

section

variable (h : Accepted env xml doc node sig verified)

include h

/-- The content of an accepted document is bound if what is left after the cut can be read and its
canonical form is the digested text. -/
lemma Accepted.contentBound_iff_exists (hchain : interpretRefTransforms (r.transforms.getD [])
      sig.signedInfo.canonicalizationMethod = .ok (exclusion, mode)) :
    ContentBound xml sig r ↔ ∃ text,
      digestedText xml r sig.id sig.signedInfo.canonicalizationMethod = .ok text ∧
        ∃ rest, parse (xml.cut node) = .ok rest ∧
          canonicalizeDoc rest mode none = text := by
  simp only [ContentBound, canonicalize, ok_iffs]
  constructor
  · rintro ⟨doc', node', _, mode', text, hdoc', hnode', hchain', htext, hcont⟩
    obtain rfl := ok_unique h.parsed hdoc'
    obtain rfl := mem_unique h.isFirst hnode'
    obtain ⟨-, rfl⟩ := Prod.mk.inj (ok_unique hchain hchain')
    exact ⟨text, htext, hcont⟩
  · rintro ⟨text, htext, hcont⟩
    exact ⟨doc, node, _, mode, text, h.parsed, h.isFirst, hchain, htext, hcont⟩

lemma Accepted.cutsCleanly_iff {e : Element}
    (he : labelAt doc.nodes node = some e) (hid : e.attribute idAttribute = some id) :
    CutsCleanly xml r ↔ 2 ≤ node.length ∧
      findIn (isSignature (some id)) (removeAt doc.nodes node) = none ∧
      xml.StaysWellFormed node ∧ xml.KeepsLineEndings node ∧
      (r.uri = [] ∨ doc.nodes.any isPi = false) := by
  constructor
  · rintro ⟨doc', node', e', id', hdoc', hnode', he', hid', hrest⟩
    obtain rfl := ok_unique h.parsed hdoc'
    obtain rfl := mem_unique h.isFirst hnode'
    obtain rfl := mem_unique he he'
    obtain rfl := mem_unique hid hid'
    exact hrest
  · exact fun hrest => ⟨doc, node, e, id, h.parsed, h.isFirst, he, hid, hrest⟩

lemma Accepted.exists_chain (hr : r ∈ sig.signedInfo.references) :
    ∃ exclusion mode, interpretRefTransforms (r.transforms.getD [])
      sig.signedInfo.canonicalizationMethod = .ok (exclusion, mode) := by
  have hdig := h.digests r hr
  simp only [verifyReferenceDigest, digestedText, bind_eq_ok] at hdig
  obtain ⟨_, ⟨⟨exclusion, mode⟩, hchain, -⟩, -⟩ := hdig
  exact ⟨exclusion, mode, hchain⟩

/-- If the first signature has an identifier without a namespace, the content is what was digested
exactly if the signature is cut out cleanly. -/
lemma Accepted.contentBound_iff (hr : r ∈ sig.signedInfo.references) (hcovers : CoversDocument xml r)
    (hplain : HasPlainId xml) : ContentBound xml sig r ↔ CutsCleanly xml r := by
  obtain ⟨⟨doc', hdoc', hwhole⟩, henve⟩ := hcovers
  obtain rfl := ok_unique h.parsed hdoc'
  obtain ⟨doc', node', e, id, hdoc', hnode', he, hid⟩ := hplain
  obtain rfl := ok_unique h.parsed hdoc'
  obtain rfl := mem_unique h.isFirst hnode'
  obtain ⟨exclusion, mode, hchain⟩ := h.exists_chain hr
  obtain rfl := exclusion_eq_byId henve hchain
  have hsig : sig.id = some id := h.id_eq_attribute he hid
  have hskips : skips (skipOf (some .byId) sig.id) = isSignature (some id) := by
    rw [hsig]
    rfl
  have hskip : skips (skipOf (some .byId) sig.id) e := by
    obtain ⟨⟨e', he', hsign⟩, -⟩ := findIn_eq_some_iff.1 h.isFirst
    obtain rfl := mem_unique he he'
    rw [hskips]
    exact isSignature_iff.2 ⟨(isSignature_iff.1 hsign).1, by simpa using hid⟩
  rw [h.contentBound_iff_exists hchain, h.cutsCleanly_iff he hid]
  obtain ⟨us, htree⟩ := labelAt_eq_some_iff.1 he
  obtain ⟨tag, htag⟩ := exists_labelAt_of_traverseAll (parse_eq_ok_iff.1 h.parsed) he
  obtain ⟨ts, hmarkup⟩ := labelAt_eq_some_iff.1 htag
  match node, he with
  | [], he => simp [labelAt, treeAt] at he
  | [i], he =>
    -- the signature is the root element: nothing is left
    constructor
    · rintro ⟨_, -, rest, hrest, -⟩
      exact absurd hrest (parse_cut_root h.parsed he rest)
    · rintro ⟨hlen, -⟩
      simp at hlen
  | i :: j :: below, he =>
    obtain ⟨pre, t, post, hocc, hpar⟩ :=
      parse_cut h.parsed hmarkup (by simp : 2 ≤ (i :: j :: below).length)
    obtain rfl := mem_unique htree hocc.treeAt_eq
    split at hpar
    · next hformed =>
      obtain ⟨rest, siblings, hrest, hnodes', hjnd⟩ := hpar
      obtain ⟨left, root, rootTs, right, hnodes, rfl, hbelow⟩ := hocc.exists_inside
      have heq := canonicalizeDoc_cut_eq_iff h.parsed hnodes hbelow hskip hnodes' hjnd
        (xml.lost_eq _) r.uri mode
      rw [hskips, Markup.lost_eq_nil_iff] at heq
      have hdige := digestedText_of_whole sig.id h.parsed hnodes hwhole hchain
      constructor
      · rintro ⟨text, htext, rest', hrest', hcont⟩
        obtain rfl := ok_unique hrest hrest'
        obtain rfl := ok_unique hdige htext
        obtain ⟨hfnd, hlines, hpi⟩ := heq.1 hcont
        exact ⟨by simp, hfnd, hformed, hlines, hpi⟩
      · rintro ⟨-, hfnd, -, hlines, hpi⟩
        exact ⟨_, hdige, rest, hrest, heq.2 ⟨hfnd, hlines, hpi⟩⟩
    · next hformed =>
      constructor
      · rintro ⟨_, -, rest, hrest, -⟩
        rw [hpar] at hrest
        cases hrest
      · rintro ⟨-, -, hformed', -⟩
        exact absurd hformed' hformed

end

lemma digestedElement_eq_some_iff {uri : Str} :
    digestedElement doc uri = some pos ↔ ∃ id, uri = '#' :: id ∧ findById doc id = some pos := by
  cases uri with
  | nil => simp [digestedElement]
  | cons c id => by_cases hc : c = '#' <;> simp [digestedElement, hc]

/-- The signed properties are what was digested exactly if the reference names them first. -/
lemma Accepted.propertiesBound_iff (h : Accepted env xml doc node sig verified)
    (hr : r ∈ sig.signedInfo.references) : PropertiesBound xml sig r ↔ NamesFirst xml r := by
  constructor
  · rintro ⟨doc', node', read, -, -, hdoc', hnode', hread, hdige, -⟩
    obtain ⟨id, huri, hfnd⟩ := digestedElement_eq_some_iff.1 hdige
    obtain ⟨⟨e, he, hid⟩, hfst⟩ := findIn_eq_some_iff.1 hfnd
    exact ⟨doc', node', read, e, id, hdoc', hnode', hread, huri, he, of_decide_eq_true hid,
      fun q other hoth hoid => hfst q other hoth (decide_eq_true hoid)⟩
  · rintro ⟨doc', node', read, e, id, hdoc', hnode', hread, huri, he, hid, hfst⟩
    obtain ⟨exclusion, mode, hchain⟩ := h.exists_chain hr
    have hfnd : findById doc' id = some read := findIn_eq_some_iff.2
      ⟨⟨e, he, decide_eq_true hid⟩,
        fun q other hoth hoid => hfst q other hoth (of_decide_eq_true hoid)⟩
    refine ⟨doc', node', read, exclusion, mode, hdoc', hnode', hread,
      digestedElement_eq_some_iff.2 ⟨id, huri, hfnd⟩, hchain, ?_⟩
    simp only [digestedText, hchain, huri, canonicalizeUri, canonicalizeById, hdoc', if_true,
      ok_iffs]
    exact ⟨(exclusion, mode), rfl, doc', rfl, _, hfnd, rfl⟩

/-- For every document that is accepted with a reference to the whole document and a reference to
its signed properties, or to anything else: if the signature is cut out cleanly and the second
reference names the signed properties first, the content and the properties that are used are what was digested; and if the
signature has an identifier without a namespace, they are only then. -/
theorem content_and_properties_bound_iff {T : Type} (env : Environment Key)
    {deserialize : Markup → Except DeError T} {signed : SignedXml T} {r' : Reference}
    (hsigned : decomposeDocument env.quickXml deserialize xml = .ok signed)
    (hverified : verifySignature env signed.envelope = .ok verified)
    (hr : r ∈ signed.envelope.signature.signedInfo.references) (hcovers : CoversDocument xml r)
    (hr' : r' ∈ signed.envelope.signature.signedInfo.references) :
    (CutsCleanly xml r ∧ NamesFirst xml r' →
        ContentBound xml signed.envelope.signature r ∧
          PropertiesBound xml signed.envelope.signature r') ∧
      (HasPlainId xml → ContentBound xml signed.envelope.signature r ∧
          PropertiesBound xml signed.envelope.signature r' →
        CutsCleanly xml r ∧ NamesFirst xml r') := by
  obtain ⟨doc, node, hacc, -⟩ := accepted_of_verify env hsigned hverified
  constructor
  · rintro ⟨hclean, hnames⟩
    obtain ⟨doc, node, e, id, hdoc, hnode, he, hid, -⟩ := id hclean
    have hplain : HasPlainId xml := ⟨doc, node, e, id, hdoc, hnode, he, hid⟩
    exact ⟨(hacc.contentBound_iff hr hcovers hplain).2 hclean,
      (hacc.propertiesBound_iff hr').2 hnames⟩
  · rintro hplain ⟨hcont, hprop⟩
    exact ⟨(hacc.contentBound_iff hr hcovers hplain).1 hcont,
      (hacc.propertiesBound_iff hr').1 hprop⟩

end Bound

/-! ### Two signatures with one identifier -/

/-- A digest of the signed properties that a signer made. -/
def propertiesDigest : Str :=
  match canonicalizeById (sampleDocument [sampleSignedProperties "p".toList "now".toList])
    .exclusive "p".toList none with
  | .ok canonical => canonical
  | .error _ => []

/-- The reference of the signer to the document without its signature. -/
def documentReference : Reference :=
  ⟨[], none, some [.envelopedSignature, .excC14n], sha256DigestUri, "<r>good</r>".toList⟩

def propertiesReference : Reference :=
  ⟨"#p".toList, some signedPropertiesType, some [.excC14n], sha256DigestUri, propertiesDigest⟩

/-- A document with these references in its first signature, with the signed properties that are
read of it and with more in the root element. -/
def boundDocument (properties : MarkupNode) (more : List MarkupNode) : Markup :=
  sampleDocument ([sampleSignature
      [sampleSignedInfo [sampleDocumentReference "<r>good</r>".toList,
        sampleReference [("URI", "#p".toList), ("Type", signedPropertiesType)] [excC14nUri]
          propertiesDigest]] properties, plainText "good".toList] ++ more)

def unambiguousDocument : Markup :=
  boundDocument (sampleSignedProperties "p".toList "now".toList) []

/-- The same references with other signed properties: those of the signer are kept in a second
signature with the same identifier, along with content that is not covered. -/
def ambiguousDocument : Markup :=
  boundDocument (sampleSignedProperties "q".toList "later".toList)
    [elem "ds" "Signature" [] [("Id", "s".toList)]
      [plainText "evil".toList, sampleSignedProperties "p".toList "now".toList]]

def acceptsReferences : Bool :=
  Except.okAnd (decomposeDocument sampleQuickXml (fun _ => .ok ()) xml) fun signed =>
    Except.okAnd (verifySignature (sampleEnvironment (sampleMessage unambiguousDocument))
      signed.envelope) fun _ => signed.envelope.signature.signedInfo.references =
        [documentReference, propertiesReference]

lemma exists_of_acceptsReferences {xml : Markup} (h : acceptsReferences xml = true) :
    ∃ (signed : SignedXml Unit) (verified : XAdESVerified),
      decomposeDocument sampleQuickXml (fun _ => .ok ()) xml = .ok signed ∧
        verifySignature (sampleEnvironment (sampleMessage unambiguousDocument)) signed.envelope =
          .ok verified ∧
        documentReference ∈ signed.envelope.signature.signedInfo.references ∧
        propertiesReference ∈ signed.envelope.signature.signedInfo.references := by
  obtain ⟨signed, hsgn, h⟩ := Except.okAnd_eq_true_iff.1 h
  obtain ⟨verified, hvfd, h⟩ := Except.okAnd_eq_true_iff.1 h
  have hrefs := of_decide_eq_true h
  exact ⟨signed, verified, hsgn, hvfd, hrefs ▸ List.mem_cons_self,
    hrefs ▸ List.mem_cons_of_mem _ List.mem_cons_self⟩

lemma coversDocument_documentReference {xml : Markup}
    (h : parse xml = .ok doc) : CoversDocument xml documentReference :=
  ⟨⟨doc, h, rfl⟩, List.mem_cons_self⟩

lemma unambiguousDocument_accepted : acceptsReferences unambiguousDocument = true := by
  decide +kernel

lemma unambiguousDocument_searches : ∃ doc, parse unambiguousDocument = .ok doc ∧
    findSignature doc none = some [0, 0] ∧
    ((labelAt doc.nodes [0, 0]).bind fun e => e.attribute idAttribute) = some "s".toList ∧
    findIn (isSignature (some "s".toList)) (removeAt doc.nodes [0, 0]) = none ∧
    unambiguousDocument.StaysWellFormed [0, 0] ∧ unambiguousDocument.KeepsLineEndings [0, 0] ∧
    readPosition unambiguousDocument [0, 0] signedPropertiesPath = some [0, 0, 3, 0, 0] ∧
    findById doc "p".toList = some [0, 0, 3, 0, 0] := by
  decide +kernel

/-- In the document of the signer, the content and the properties are what was digested. -/
theorem content_and_properties_bound_unambiguousDocument :
    ∃ (signed : SignedXml Unit) (verified : XAdESVerified) (r r' : Reference),
      decomposeDocument sampleQuickXml (fun _ => .ok ()) unambiguousDocument = .ok signed ∧
      verifySignature (sampleEnvironment (sampleMessage unambiguousDocument)) signed.envelope =
        .ok verified ∧
      (r ∈ signed.envelope.signature.signedInfo.references ∧
        CoversDocument unambiguousDocument r) ∧
      (r' ∈ signed.envelope.signature.signedInfo.references ∧ CoversProperties r') ∧
      (CutsCleanly unambiguousDocument r ∧ NamesFirst unambiguousDocument r') ∧
      ContentBound unambiguousDocument signed.envelope.signature r ∧
      PropertiesBound unambiguousDocument signed.envelope.signature r' := by
  obtain ⟨signed, verified, hsgn, hvfd, hr, hr'⟩ :=
    exists_of_acceptsReferences unambiguousDocument_accepted
  obtain ⟨doc, hdoc, hpos, hid, hfnd, hformed, hlines, hread, hfst⟩ :=
    unambiguousDocument_searches
  obtain ⟨e, he, hatt⟩ := bind_eq_some_iff.1 hid
  obtain ⟨⟨e', he', hid'⟩, hleast⟩ := findIn_eq_some_iff.1 hfst
  have hcovers := coversDocument_documentReference hdoc
  have hclean : CutsCleanly unambiguousDocument documentReference :=
    ⟨doc, _, e, _, hdoc, hpos, he, hatt, Nat.le_refl 2, hfnd, hformed, hlines, .inl rfl⟩
  have hnames : NamesFirst unambiguousDocument propertiesReference :=
    ⟨doc, _, _, e', _, hdoc, hpos, hread, rfl, he', of_decide_eq_true hid',
      fun q other hoth hoid => hleast q other hoth (decide_eq_true hoid)⟩
  have hbound := (content_and_properties_bound_iff
    (sampleEnvironment (sampleMessage unambiguousDocument)) hsgn hvfd hr hcovers hr').1
  exact ⟨signed, verified, _, _, hsgn, hvfd, ⟨hr, hcovers⟩, ⟨hr', rfl⟩, ⟨hclean, hnames⟩,
    hbound ⟨hclean, hnames⟩⟩

lemma ambiguousDocument_accepted : acceptsReferences ambiguousDocument = true := by
  decide +kernel

lemma ambiguousDocument_searches : ∃ doc, parse ambiguousDocument = .ok doc ∧
    findSignature doc none = some [0, 0] ∧
    ((labelAt doc.nodes [0, 0]).bind fun e => e.attribute idAttribute) = some "s".toList ∧
    findIn (isSignature (some "s".toList)) (removeAt doc.nodes [0, 0]) = some [0, 1] ∧
    readPosition ambiguousDocument [0, 0] signedPropertiesPath = some [0, 0, 3, 0, 0] ∧
    findById doc "p".toList = some [0, 2, 1] := by
  decide +kernel

/-- A document is accepted although its content and its signed properties are not what was
digested. -/
theorem unbound_content_and_properties_accepted :
    ∃ (signed : SignedXml Unit) (verified : XAdESVerified) (r r' : Reference),
      decomposeDocument sampleQuickXml (fun _ => .ok ()) ambiguousDocument = .ok signed ∧
      verifySignature (sampleEnvironment (sampleMessage unambiguousDocument)) signed.envelope =
        .ok verified ∧
      (r ∈ signed.envelope.signature.signedInfo.references ∧
        CoversDocument ambiguousDocument r) ∧
      (r' ∈ signed.envelope.signature.signedInfo.references ∧ CoversProperties r') ∧
      ¬ ContentBound ambiguousDocument signed.envelope.signature r ∧
      ¬ PropertiesBound ambiguousDocument signed.envelope.signature r' := by
  obtain ⟨signed, verified, hsgn, hvfd, hr, hr'⟩ :=
    exists_of_acceptsReferences ambiguousDocument_accepted
  obtain ⟨doc, hdoc, hpos, hid, hfnd, hread, hfst⟩ := ambiguousDocument_searches
  obtain ⟨e, he, hatt⟩ := bind_eq_some_iff.1 hid
  obtain ⟨doc', pos', hacc, -⟩ := accepted_of_verify
    (sampleEnvironment (sampleMessage unambiguousDocument)) hsgn hvfd
  obtain rfl := ok_unique hacc.parsed hdoc
  obtain rfl := mem_unique hacc.isFirst hpos
  have hcovers := coversDocument_documentReference hdoc
  refine ⟨signed, verified, _, _, hsgn, hvfd, ⟨hr, hcovers⟩, ⟨hr', rfl⟩, ?_, ?_⟩
  · rw [hacc.contentBound_iff hr hcovers ⟨doc', _, e, _, hdoc, hpos, he, hatt⟩,
      hacc.cutsCleanly_iff he hatt, hfnd]
    simp
  · rintro ⟨doc', node', read, -, -, hdoc', hnode', hread', hdige, -⟩
    obtain rfl := ok_unique hacc.parsed hdoc'
    obtain rfl := mem_unique hacc.isFirst hnode'
    obtain ⟨id, huri, hfnd'⟩ := digestedElement_eq_some_iff.1 hdige
    obtain rfl : "p".toList = id := (List.cons.inj huri).2
    have hsame := (hread.symm.trans hread').trans (hfnd'.symm.trans hfst)
    simp at hsame

end OneCore.Xades
