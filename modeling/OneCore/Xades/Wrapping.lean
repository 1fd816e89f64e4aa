/-
# What is verified is what was read

The references of a signature are read from a child of the first `ds:Signature` by its local name.
The public key is applied to another search: the first `ds:SignedInfo` anywhere inside the first
`ds:Signature` that carries the identifier without a namespace.  The two can be different
elements: a signed element can be kept somewhere in front of the child that the references are read
from.  `verifiesWhatItReads_iff` says for which documents they are the same, and that for those
documents the references were signed.
-/
import OneCore.Xades.Verify

namespace OneCore.Xades

open OrderedTree Option Document

def signedInfoName : ExpandedName := ⟨some xmldsigNs, "SignedInfo".toList⟩

/-- The element whose canonical form the public key is applied to is the one that the references
and the algorithms were read from. -/
def VerifiesWhatItReads (xml : Markup) (sig : Signature) : Prop :=
  ∃ doc signatureNode read, parse xml = .ok doc ∧
    findSignature doc none = some signatureNode ∧
    readPosition xml signatureNode signedInfoPath = some read ∧
    verifiedPosition doc sig.id = some read

/-- The canonical form of the element that the references were read from was signed with a key of
the signer's certificate. -/
def ReferencesSigned {Key : Type} (env : Environment Key) (Signed : Key → Bytes → Prop)
    (xml : Markup) (sig : Signature) (verified : XAdESVerified) : Prop :=
  ∃ doc signatureNode read mode key, parse xml = .ok doc ∧
    findSignature doc none = some signatureNode ∧
    readPosition xml signatureNode signedInfoPath = some read ∧
    c14nModeFromUri sig.signedInfo.canonicalizationMethod = .ok mode ∧
    IsSignerKey env verified.signerChainPem key ∧
    Signed key (utf8 (canonicalizeSubtree doc read mode none))

/-- The first signature has an identifier without a namespace, its child that is read as the signed
information is in the namespace of signatures, and no other signed information is inside the
signature before it. -/
def SignsDirectChild (xml : Markup) : Prop :=
  ∃ doc signatureNode i e child, parse xml = .ok doc ∧
    findSignature doc none = some signatureNode ∧
    labelAt doc.nodes signatureNode = some e ∧ e.attribute idAttribute ≠ none ∧
    readPosition xml signatureNode signedInfoPath = some (signatureNode ++ [i]) ∧
    labelAt doc.nodes (signatureNode ++ [i]) = some child ∧
    child.tagName.uri = some xmldsigNs ∧
    ∀ q other, labelAt doc.nodes (signatureNode ++ q) = some other →
      other.tagName = signedInfoName → ¬ q < [i]

/-! ### The two searches -/

section Searches

variable {doc : Document} {pos pos' read : Position} {e : Element} {ts : List Node}

lemma isSignature_iff {signatureId : Option Str} :
    isSignature signatureId e ↔ e.tagName = ⟨some xmldsigNs, signatureName⟩ ∧
      ∀ id ∈ signatureId, e.attribute idAttribute = some id := by
  cases signatureId <;> simp [isSignature]

lemma findSignature_of_attribute (h : findSignature doc none = some pos)
    (he : labelAt doc.nodes pos = some e) {id : Str} (hid : e.attribute idAttribute = some id) :
    findSignature doc (some id) = some pos := by
  obtain ⟨⟨e', he', hsig⟩, hfst⟩ := findIn_eq_some_iff.1 h
  obtain rfl := mem_unique he he'
  refine findIn_eq_some_iff.2 ⟨⟨e, he, ?_⟩, fun q a ha hq => hfst q a ha ?_⟩
  · exact isSignature_iff.2 ⟨(isSignature_iff.1 hsig).1, by simpa using hid⟩
  · exact isSignature_iff.2 ⟨(isSignature_iff.1 hq).1, by simp⟩

lemma findBelow_eq_some_iff {name : ExpandedName} (ht : treeAt doc.nodes pos = some (.node e ts))
    (hne : e.tagName ≠ name) :
    findBelow doc pos name = some read ↔
      ∃ q, findIn (fun e => e.tagName = name) ts = some q ∧ pos ++ q = read := by
  simp [findBelow, ht, find?, hne, bind_eq_some_iff]

lemma signature_ne_signedInfo : (⟨some xmldsigNs, signatureName⟩ : ExpandedName) ≠
    signedInfoName := by
  decide

/-- What is found inside a signature is a child of the first signature only if it was looked for
there. -/
lemma signature_eq_of_append_eq (hfst : findSignature doc none = some pos) {id : Option Str}
    (hpos' : findSignature doc id = some pos') {q : Position} {i : Nat}
    (hq : findBelow doc pos' signedInfoName = some (pos' ++ q)) (heq : pos' ++ q = pos ++ [i]) :
    pos' = pos := by
  obtain ⟨⟨e', he', hsig⟩, -⟩ := findIn_eq_some_iff.1 hpos'
  have hname := (isSignature_iff.1 hsig).1
  obtain ⟨-, hleast⟩ := findIn_eq_some_iff.1 hfst
  have hnot : ¬ pos' < pos := hleast pos' e' he' (isSignature_iff.2 ⟨hname, by simp⟩)
  obtain ⟨ts', ht'⟩ := labelAt_eq_some_iff.1 he'
  rcases List.append_eq_append_iff.1 heq with ⟨r, hr, -⟩ | ⟨r, hr, hi⟩
  · -- the signature that was searched is around the first one, or it is the first one
    by_cases hnil : r = []
    · rw [hr, hnil, List.append_nil]
    · rw [hr] at hnot
      exact absurd (lt_append pos' hnil) hnot
  · -- or it is the child itself, which is no signed information then
    cases r with
    | nil => rw [hr, List.append_nil]
    | cons j r =>
      have hnil : q = [] := by
        have hlen := congrArg List.length hi
        simp only [List.length_cons, List.length_append, List.length_nil] at hlen
        exact List.length_eq_zero_iff.1 (by omega)
      obtain ⟨q', hq', happ⟩ := (findBelow_eq_some_iff ht' (hname ▸ signature_ne_signedInfo)).1 hq
      obtain rfl := List.append_cancel_left happ
      obtain ⟨⟨a, ha, -⟩, -⟩ := findIn_eq_some_iff.1 hq'
      rw [hnil] at ha
      simp [labelAt, treeAt] at ha

end Searches

/-! ### The documents for which the searches agree -/

section Main

variable {Key T : Type} {env : Environment Key} {deserialize : Markup → Except DeError T}
  {xml : Markup} {doc : Document} {signatureNode : Position} {sig : Signature}
  {signed : SignedXml T} {verified : XAdESVerified}

section

variable (h : Accepted env xml doc signatureNode sig verified)

include h

lemma Accepted.exists_signedInfo :
    ∃ i child, readPosition xml signatureNode signedInfoPath = some (signatureNode ++ [i]) ∧
      labelAt doc.nodes (signatureNode ++ [i]) = some child ∧
      child.tagName.name = "SignedInfo".toList := by
  obtain ⟨tag, children, htree, hsrc⟩ := h.deserialized
  obtain ⟨i, siTag, siChildren, hpath, hget, hname, -⟩ := hsrc.signedInfo
  have hlab : labelAt xml.nodes (signatureNode ++ [i]) = some siTag := by
    rw [labelAt_append_of_treeAt_eq_node htree (List.cons_ne_nil i [])]
    simp [labelAt, treeAt, hget, subtree?]
  obtain ⟨child, -, hch, hchil, -⟩ := exists_element h.parsed hlab
  refine ⟨i, child, ?_, hch, hchil.trans hname⟩
  simp only [readPosition, htree, bind_eq_bind, bind_some, OrderedTree.children, hpath]
  rfl

/-- The identifier of the first signature, if it has one without a namespace, is the one that was
deserialised. -/
lemma Accepted.id_eq_attribute {e : Element}
    (he : labelAt doc.nodes signatureNode = some e) {id : Str}
    (hid : e.attribute idAttribute = some id) : sig.id = some id := by
  obtain ⟨tag, children, htree, hsrc⟩ := h.deserialized
  obtain ⟨e', namespaces, he', -, hattr⟩ := exists_element h.parsed
    (labelAt_eq_some_iff.2 ⟨children, htree⟩)
  obtain rfl := mem_unique he he'
  exact optionalAttribute_of_attribute hattr hid hsrc.id

/-- The search for the signed element ends at a child of the first signature exactly if that
signature is found by its identifier and nothing is found in it before the child. -/
lemma Accepted.verifiedPosition_eq_iff
    {i : Nat} {child : Element} (hch : labelAt doc.nodes (signatureNode ++ [i]) = some child)
    (hname : child.tagName.name = "SignedInfo".toList) :
    verifiedPosition doc sig.id = some (signatureNode ++ [i]) ↔
      (∃ e, labelAt doc.nodes signatureNode = some e ∧ e.attribute idAttribute ≠ none) ∧
        child.tagName.uri = some xmldsigNs ∧
        ∀ q other, labelAt doc.nodes (signatureNode ++ q) = some other →
          other.tagName = signedInfoName → ¬ q < [i] := by
  obtain ⟨⟨e, he, hsig⟩, -⟩ := findIn_eq_some_iff.1 h.isFirst
  obtain ⟨ts, ht⟩ := labelAt_eq_some_iff.1 he
  have hne : e.tagName ≠ signedInfoName := (isSignature_iff.1 hsig).1 ▸ signature_ne_signedInfo
  have hbelow : ∀ q ≠ [], labelAt doc.nodes (signatureNode ++ q) = labelAt ts q :=
    fun q hq => labelAt_append_of_treeAt_eq_node ht hq
  rw [hbelow [i] (List.cons_ne_nil i [])] at hch
  -- in the signature itself, the search returns the child if it is the first with the name
  have hsearch : findBelow doc signatureNode signedInfoName = some (signatureNode ++ [i]) ↔
      child.tagName.uri = some xmldsigNs ∧
        ∀ q other, labelAt doc.nodes (signatureNode ++ q) = some other →
          other.tagName = signedInfoName → ¬ q < [i] := by
    rw [findBelow_eq_some_iff ht hne]
    constructor
    · rintro ⟨q, hq, hread⟩
      obtain rfl := List.append_cancel_left hread
      obtain ⟨⟨c, hc, hcname⟩, hfst⟩ := findIn_eq_some_iff.1 hq
      obtain rfl := mem_unique hch hc
      refine ⟨by rw [of_decide_eq_true hcname]; rfl, fun q other hoth honame => ?_⟩
      by_cases hnil : q = []
      · rw [hnil, List.append_nil, he] at hoth
        exact absurd (some.inj hoth ▸ honame) hne
      · exact hfst q other (hbelow q hnil ▸ hoth) (decide_eq_true honame)
    · rintro ⟨huri, hfst⟩
      refine ⟨[i], findIn_eq_some_iff.2 ⟨⟨child, hch, ?_⟩, fun q other hoth honame => ?_⟩,
        rfl⟩
      · exact decide_eq_true (by rw [signedInfoName, ← huri, ← hname])
      · have hnil : q ≠ [] := by
          rintro rfl
          simp [labelAt, treeAt] at hoth
        exact hfst q other ((hbelow q hnil).trans hoth) (of_decide_eq_true honame)
  obtain ⟨id, hid⟩ := h.hasId
  simp only [verifiedPosition, bind_eq_bind, bind_eq_some_iff]
  constructor
  · rintro ⟨pos', hpos', hfnd⟩
    have hread : ∃ q, pos' ++ q = signatureNode ++ [i] := by
      simp only [findBelow, bind_eq_bind, bind_eq_some_iff, pure_def, some.injEq] at hfnd
      obtain ⟨-, -, q, -, hq⟩ := hfnd
      exact ⟨q, hq⟩
    obtain ⟨q, hq⟩ := hread
    obtain rfl := signature_eq_of_append_eq h.isFirst hpos' (hq ▸ hfnd) hq
    refine ⟨⟨e, he, ?_⟩, hsearch.1 hfnd⟩
    obtain ⟨⟨e', he', hsig'⟩, -⟩ := findIn_eq_some_iff.1 hpos'
    obtain rfl := mem_unique he he'
    rw [(isSignature_iff.1 hsig').2 id (by simp [hid])]
    exact some_ne_none id
  · rintro ⟨⟨e', he', hatt⟩, hdirect⟩
    obtain ⟨id', hid'⟩ := ne_none_iff_exists'.1 hatt
    refine ⟨signatureNode, ?_, hsearch.2 hdirect⟩
    rw [h.id_eq_attribute he' hid']
    exact findSignature_of_attribute h.isFirst he' hid'

end

/-- For every document that is accepted, the public key was applied to the element that the
references were read from exactly if the document signs a direct child; and then, where signatures
cannot be forged, the references were signed. -/
theorem verifiesWhatItReads_iff (env : Environment Key)
    (hsigned : decomposeDocument env.quickXml deserialize xml = .ok signed)
    (hverified : verifySignature env signed.envelope = .ok verified) :
    (VerifiesWhatItReads xml signed.envelope.signature ↔ SignsDirectChild xml) ∧
      (SignsDirectChild xml → ∀ Signed, env.Unforgeable Signed →
        ReferencesSigned env Signed xml signed.envelope.signature verified) := by
  obtain ⟨doc, node, hacc, -⟩ := accepted_of_verify env hsigned hverified
  obtain ⟨i, child, hread, hch, hname⟩ := hacc.exists_signedInfo
  have hiff := hacc.verifiedPosition_eq_iff hch hname
  have hdirect : SignsDirectChild xml →
      verifiedPosition doc signed.envelope.signature.id = some (node ++ [i]) := by
    rintro ⟨doc', node', j, e, child', hdoc, hnode, he, hatt, hread', hch', huri, hbef⟩
    obtain rfl := ok_unique hacc.parsed hdoc
    obtain rfl := mem_unique hacc.isFirst hnode
    obtain rfl : i = j := by simpa using hread.symm.trans hread'
    obtain rfl := mem_unique hch hch'
    exact hiff.2 ⟨⟨e, he, hatt⟩, huri, hbef⟩
  refine ⟨⟨?_, fun h => ?_⟩, fun h Signed hunf => ?_⟩
  · rintro ⟨doc', node', read, hdoc, hnode, hread', hpos⟩
    obtain rfl := ok_unique hacc.parsed hdoc
    obtain rfl := mem_unique hacc.isFirst hnode
    obtain rfl := mem_unique hread hread'
    obtain ⟨⟨e, he, hatt⟩, huri, hbef⟩ := hiff.1 hpos
    exact ⟨doc, node, i, e, child, hdoc, hnode, he, hatt, hread, hch, huri, hbef⟩
  · exact ⟨doc, node, node ++ [i], hacc.parsed, hacc.isFirst, hread, hdirect h⟩
  · obtain ⟨mode, target, algorithm, parsed, value, hmode, htarget, hparsed, hmsg⟩ :=
      hacc.signed
    obtain rfl := some.inj ((hdirect h).symm.trans htarget)
    obtain ⟨key, hkey, hsigned⟩ := hunf.exists_signed hparsed hmsg
    exact ⟨doc, node, _, mode, key, hacc.parsed, hacc.isFirst, hread, hmode, hkey, hsigned⟩

end Main

/-! ### An element that was signed, kept beside the one that is read -/

def honestDocument : Markup :=
  sampleDocument [sampleSignature
      [sampleSignedInfo [sampleDocumentReference "<r>good</r>".toList]]
      (sampleSignedProperties "p".toList "now".toList),
    plainText "good".toList]

/-- The same signature around another document: the signed information is kept in an element that
the deserialiser ignores, and a new one takes its place. -/
def wrappedDocument : Markup :=
  sampleDocument [sampleSignature
      [elem "" "x" [] [] [sampleSignedInfo [sampleDocumentReference "<r>good</r>".toList]],
        sampleSignedInfo [sampleDocumentReference "<r>evil</r>".toList]]
      (sampleSignedProperties "p".toList "now".toList),
    plainText "evil".toList]

lemma honestDocument_accepted : accepts (sampleMessage honestDocument) honestDocument = true := by
  decide +kernel

lemma honestDocument_searches : ∃ doc, parse honestDocument = .ok doc ∧
    findSignature doc none = some [0, 0] ∧
    ((labelAt doc.nodes [0, 0]).bind fun e => e.attribute idAttribute) = some "s".toList ∧
    readPosition honestDocument [0, 0] signedInfoPath = some [0, 0, 0] ∧
    verifiedPosition doc (some "s".toList) = some [0, 0, 0] := by
  decide +kernel

lemma id_eq_of_searches {message id : Str} {xml : Markup} {signed : SignedXml Unit}
    {verified : XAdESVerified} {doc : Document} {pos : Position}
    (hsgn : decomposeDocument sampleQuickXml (fun _ => .ok ()) xml = .ok signed)
    (hvfd : verifySignature (sampleEnvironment message) signed.envelope = .ok verified)
    (hdoc : parse xml = .ok doc) (hpos : findSignature doc none = some pos)
    (hid : ((labelAt doc.nodes pos).bind fun e => e.attribute idAttribute) = some id) :
    signed.envelope.signature.id = some id := by
  obtain ⟨doc', pos', hacc, -⟩ :=
    accepted_of_verify (sampleEnvironment message) hsgn hvfd
  obtain rfl := ok_unique hacc.parsed hdoc
  obtain rfl := mem_unique hacc.isFirst hpos
  obtain ⟨e, he, hatt⟩ := bind_eq_some_iff.1 hid
  exact hacc.id_eq_attribute he hatt

/-- In the document of the signer the searches agree, and so the references were signed. -/
theorem verifiesWhatItReads_honestDocument :
    ∃ (signed : SignedXml Unit) (verified : XAdESVerified),
      decomposeDocument sampleQuickXml (fun _ => .ok ()) honestDocument = .ok signed ∧
      verifySignature (sampleEnvironment (sampleMessage honestDocument)) signed.envelope =
        .ok verified ∧
      SignsDirectChild honestDocument ∧
      ReferencesSigned (sampleEnvironment (sampleMessage honestDocument))
        (fun _ m => m = utf8 (sampleMessage honestDocument)) honestDocument
        signed.envelope.signature verified := by
  obtain ⟨signed, verified, hsgn, hvfd⟩ := exists_of_accepts honestDocument_accepted
  obtain ⟨doc, hdoc, hpos, hid, hread, hposi⟩ := honestDocument_searches
  have hsame : VerifiesWhatItReads honestDocument signed.envelope.signature :=
    ⟨doc, _, _, hdoc, hpos, hread, id_eq_of_searches hsgn hvfd hdoc hpos hid ▸ hposi⟩
  obtain ⟨hiff, hrefe⟩ := verifiesWhatItReads_iff
    (sampleEnvironment (sampleMessage honestDocument)) hsgn hvfd
  have hdirect := hiff.1 hsame
  exact ⟨signed, verified, hsgn, hvfd, hdirect, hrefe hdirect _ (sampleEnvironment_unforgeable _)⟩

lemma wrappedDocument_accepted : accepts (sampleMessage honestDocument) wrappedDocument = true := by
  decide +kernel

lemma wrappedDocument_searches : ∃ doc, parse wrappedDocument = .ok doc ∧
    (findSignature doc none = some [0, 0] ∧
      ((labelAt doc.nodes [0, 0]).bind fun e => e.attribute idAttribute) = some "s".toList ∧
      readPosition wrappedDocument [0, 0] signedInfoPath = some [0, 0, 1] ∧
      verifiedPosition doc (some "s".toList) = some [0, 0, 0, 0] ∧
      ∀ mode ∈ [C14nMode.exclusive, C14nMode.inclusive],
        utf8 (canonicalizeSubtree doc [0, 0, 1] mode none) ≠
          utf8 (sampleMessage honestDocument)) := by
  decide +kernel

/-- A document is accepted although the element that its references were read from is another one
than the signed element, and although nobody signed those references. -/
theorem wrapped_references_accepted :
    ∃ (signed : SignedXml Unit) (verified : XAdESVerified),
      decomposeDocument sampleQuickXml (fun _ => .ok ()) wrappedDocument = .ok signed ∧
      verifySignature (sampleEnvironment (sampleMessage honestDocument)) signed.envelope =
        .ok verified ∧
      ¬ VerifiesWhatItReads wrappedDocument signed.envelope.signature ∧
      (sampleEnvironment (sampleMessage honestDocument)).Unforgeable
        (fun _ m => m = utf8 (sampleMessage honestDocument)) ∧
      ¬ ReferencesSigned (sampleEnvironment (sampleMessage honestDocument))
        (fun _ m => m = utf8 (sampleMessage honestDocument)) wrappedDocument
        signed.envelope.signature verified := by
  obtain ⟨signed, verified, hsgn, hvfd⟩ := exists_of_accepts wrappedDocument_accepted
  obtain ⟨doc, hdoc, hpos, hid, hread, hposi, hcan⟩ := wrappedDocument_searches
  refine ⟨signed, verified, hsgn, hvfd, ?_, sampleEnvironment_unforgeable _, ?_⟩
  · rintro ⟨doc', pos, read, hdoc', hpos', hread', hposi'⟩
    obtain rfl := ok_unique hdoc hdoc'
    obtain rfl := mem_unique hpos hpos'
    rw [id_eq_of_searches hsgn hvfd hdoc hpos hid] at hposi'
    have hsame := (hread.symm.trans hread').trans (hposi'.symm.trans hposi)
    simp at hsame
  · rintro ⟨doc', pos, read, mode, key, hdoc', hpos', hread', -, -, hsgn'⟩
    obtain rfl := ok_unique hdoc hdoc'
    obtain rfl := mem_unique hpos hpos'
    obtain rfl := mem_unique hread hread'
    exact hcan mode (by cases mode <;> simp) hsgn'

end OneCore.Xades
