/-
# The elements of a mobile document, written and read

An element is written as a CBOR value with the data types of its claims, and it is read without them: the
reader has only the kinds and the tags of the CBOR values.  Some values cannot be read again: a number
with more than 64 bits or one that is not written in the shortest way, a portrait that is not a JPEG, and an
array of dates in different formats.

`exists_reads_iff` says that these are all: an element whose arrays have one data type each is read as
it was written, if and only if it has no such value in it.
-/
import OneCore.Mdoc.Issuance

namespace OneCore.Mdoc

open List Option JsonValue Path Decimal

/-- The encodings can be undone.  The time stamps of a mobile security object and the bytes of a
protected header need not come back. -/
structure IssuerEnvironment.Laws (env : IssuerEnvironment) : Prop where
  decodeIssuerSigned : ∀ document token, env.encodeIssuerSigned document = .ok token →
    ∃ decoded, env.decodeIssuerSigned token = .ok decoded ∧
      decoded.nameSpaces = document.nameSpaces ∧
      decoded.issuerAuth.payload = document.issuerAuth.payload ∧
      decoded.issuerAuth.unprotectedRest = document.issuerAuth.unprotectedRest
  decodeMso : ∀ mso payload, env.embedMso mso = .ok payload →
    ∃ decoded, env.decodeMso payload = .ok decoded ∧
      decoded.inner.digestAlgorithm = mso.digestAlgorithm ∧
      decoded.inner.valueDigests = mso.valueDigests ∧ decoded.inner.deviceKey = mso.deviceKey
  base64 : ∀ s bytes, env.decodeBase64 s = .ok bytes → env.base64 bytes = .ok s
  utf8 : ∀ s, env.fromUtf8Lossy (env.utf8 s) = s
  base64Url : ∀ bytes, ∃ s, env.base64UrlNoPadding bytes = .ok s

/-! ### Leaves -/

variable {c : PublishedClaim}

section Leaf

variable (env : IssuerEnvironment)

def claimText (c : PublishedClaim) : Str := c.value.toText env.displayFloat

/-- Is the text the shortest one of a number that CBOR integers have? -/
def IsCborNumber (text : Str) : Prop :=
  ∃ n : Int, -2 ^ 64 ≤ n ∧ n < 2 ^ 64 ∧ text = (toString n).toList

def IsJpeg (text : Str) : Prop := "data:image/jpeg;base64,".toList <+: text

/-- The value of the claim can be read again. -/
structure LeafReadable (c : PublishedClaim) : Prop where
  number : ∀ d min max, c.datatype = some d → env.datatypeConfig d = some (.number min max) →
    IsCborNumber (claimText env c)
  portrait : ∀ d accept fileSize, c.datatype = some d →
    env.datatypeConfig d = some (.picture accept fileSize true) → IsJpeg (claimText env c)

variable {env}

lemma leafReadable_iff {d : String} {datatype : Datatype} (hd : c.datatype = some d)
    (hdt : env.datatypeConfig d = some datatype) : LeafReadable env c ↔
      (∀ min max, datatype = .number min max → IsCborNumber (claimText env c)) ∧
        ∀ accept fileSize, datatype = .picture accept fileSize true → IsJpeg (claimText env c) := by
  constructor
  · rintro ⟨hnumber, hport⟩
    exact ⟨fun min max hdt' => hnumber d min max hd (hdt' ▸ hdt),
      fun accept fileSize hdt' => hport d accept fileSize hd (hdt' ▸ hdt)⟩
  · rintro ⟨hnumber, hport⟩
    constructor
    · intro d' min max hd' hdt'
      obtain rfl := mem_unique hd hd'
      exact hnumber min max (mem_unique hdt hdt')
    · intro d' accept fileSize hd' hdt'
      obtain rfl := mem_unique hd hd'
      exact hport accept fileSize (mem_unique hdt hdt')

variable {n : Int} {mimeType : Str} {datatype : Datatype} {formats : List DateFormat}
  {preferred : Option DateFormat}

/-- A number is read with its shortest text if it has 64 bits, and not at all otherwise. -/
lemma buildJsonValue_cborInteger {j : JsonValue} :
    buildJsonValue env.toEnvironment (cborInteger n) = .ok j ↔
      (-2 ^ 64 ≤ n ∧ n < 2 ^ 64) ∧ j = .string (toString n).toList := by
  rw [cborInteger]
  split
  · next hrange =>
    rw [buildJsonValue, Except.ok.injEq, eq_comm, and_iff_right hrange]
  · next hrange =>
    have hfalse : ∀ tag value, tag = bigNegTag ∨ tag = bigPosTag →
        ¬buildJsonValue env.toEnvironment (.tag tag value) = .ok j := by
      rintro tag value (rfl | rfl) h
      · rw [buildJsonValue, if_neg (by decide)] at h
        cases h
      · rw [buildJsonValue, if_neg (by decide)] at h
        cases h
    refine ⟨fun h => ?_, fun h => absurd h.1 hrange⟩
    split at h
    · exact absurd h (hfalse _ _ (.inl rfl))
    · exact absurd h (hfalse _ _ (.inr rfl))

variable {text : Str}

lemma isCborNumber_iff (h : parseSigned (2 ^ 127) text = .ok n) :
    IsCborNumber text ↔ (-2 ^ 64 ≤ n ∧ n < 2 ^ 64) ∧ text = (toString n).toList := by
  constructor
  · rintro ⟨m, hlo, hhi, rfl⟩
    have hpar : parseSigned (2 ^ 127) (toString m).toList = .ok m := by
      refine parseSigned_toString ?_ ?_
      · refine le_trans ?_ hlo
        norm_num
      · refine lt_of_lt_of_le hhi ?_
        norm_num
    obtain rfl := ok_unique hpar h
    exact ⟨⟨hlo, hhi⟩, rfl⟩
  · rintro ⟨⟨hlo, hhi⟩, htext⟩
    exact ⟨n, hlo, hhi, htext⟩

/-- A portrait comes back exactly if it is a JPEG. -/
lemma portrait_reads_iff (laws : env.Laws) {content : Str} {bytes : Bytes}
    (hsplit : splitOnce ',' text = some (mimeType, content))
    (hbytes : env.decodeBase64 content = .ok bytes) :
    buildJsonValue env.toEnvironment (.bytes bytes) = .ok (.string text) ↔ IsJpeg text := by
  obtain ⟨rfl, hcomma⟩ := splitOnce_eq_some_iff.1 hsplit
  have hread : buildJsonValue env.toEnvironment (.bytes bytes) =
      .ok (.string ("data:image/jpeg;base64,".toList ++ content)) := by
    rw [buildJsonValue, handleBytes, laws.base64 content bytes hbytes]
    rfl
  have hhd : "data:image/jpeg;base64,".toList = "data:image/jpeg;base64".toList ++ [','] := by
    decide
  rw [hread, Except.ok.injEq, string.injEq]
  constructor
  · intro heq
    exact ⟨content, heq⟩
  · rintro ⟨rest, hrest⟩
    rw [hhd, append_assoc, singleton_append] at hrest ⊢
    have hsplit' : splitOnce ',' ("data:image/jpeg;base64".toList ++ ',' :: rest) =
        some ("data:image/jpeg;base64".toList, rest) := splitOnce_append (by decide) rest
    rw [hrest, hsplit] at hsplit'
    obtain ⟨rfl, rfl⟩ := Prod.mk.inj (some.inj hsplit')
    rfl

lemma picture_reads (laws : env.Laws) {content : Str}
    (hsplit : splitOnce ',' text = some (mimeType, content)) :
    buildJsonValue env.toEnvironment (.array [.text mimeType, .bytes (env.utf8 content)]) =
      .ok (.string text) := by
  obtain ⟨rfl, -⟩ := splitOnce_eq_some_iff.1 hsplit
  show Except.ok (string (mimeType ++ ',' :: env.fromUtf8Lossy (env.utf8 content))) = _
  rw [laws.utf8]

lemma handleDate_text {env : Environment} {isDate : Str → Bool} {kind : String}
    (h : isDate text = true) : handleDate env (.text text) isDate kind = .ok (.string text) :=
  bind_eq_ok.2 ⟨text, rfl, bind_eq_ok.2 ⟨(), ensure_eq_ok.2 h, rfl⟩⟩

variable {value : CborValue}

lemma exists_datatype (h : mapToCiboriumValue env c = .ok value) :
    ∃ d datatype, c.datatype = some d ∧ env.datatypeConfig d = some datatype := by
  simp only [mapToCiboriumValue, ok_iffs] at h
  obtain ⟨d, hd, datatype, hdt, -⟩ := h
  exact ⟨d, datatype, hd, hdt⟩

/-- What a claim is written as, for each data type. -/
inductive WrittenAs (env : IssuerEnvironment) (text : Str) : Datatype → CborValue → Prop
  | string (pattern : Option Str) : WrittenAs env text (.string pattern) (.text text)
  | number (min max : Option UInt64) {n : Int}
      (hn : parseSigned (2 ^ 127) text = .ok n) :
      WrittenAs env text (.number min max) (cborInteger n)
  | fullDate (formats : List DateFormat) (preferred : Option DateFormat) (min max : Option Str)
      (hdate : env.isFullDate text = true) :
      WrittenAs env text (.date formats preferred min max) (.tag fullDateTag (.text text))
  | dateTime (formats : List DateFormat) (preferred : Option DateFormat) (min max : Option Str)
      (hdate : env.isFullDate text = false) (htime : env.isDateTime text = true) :
      WrittenAs env text (.date formats preferred min max) (.tag tdateTag (.text text))
  | boolean (b : Bool) (hb : text = if b then "true".toList else "false".toList) :
      WrittenAs env text .boolean (.bool b)
  | portrait (accept : Option (List Str)) (fileSize : Option Nat) {mimeType content : Str}
      {bytes : Bytes} (hsplit : splitOnce ',' text = some (mimeType, content))
      (hbytes : env.decodeBase64 content = .ok bytes) :
      WrittenAs env text (.picture accept fileSize true) (.bytes bytes)
  | picture (accept : Option (List Str)) (fileSize : Option Nat) {mimeType content : Str}
      (hsplit : splitOnce ',' text = some (mimeType, content)) :
      WrittenAs env text (.picture accept fileSize false)
        (.array [.text mimeType, .bytes (env.utf8 content)])

lemma writtenAs_of_mapToCiboriumValue
    (h : mapToCiboriumValue env c = .ok value) {d : String} (hd : c.datatype = some d)
    (hdt : env.datatypeConfig d = some datatype) :
    WrittenAs env (claimText env c) datatype value := by
  simp only [mapToCiboriumValue, ok_iffs, hd, hdt, some.injEq, exists_eq_left'] at h
  cases datatype with
  | string pattern =>
    cases h
    exact .string pattern
  | number min max =>
    obtain ⟨n, hn, h⟩ := bind_eq_ok.1 h
    obtain rfl := pure_eq_ok.1 h
    exact .number min max (mapError_eq_ok.1 hn)
  | date formats preferred min max =>
    simp only at h
    split at h
    · next hdate =>
      cases h
      exact .fullDate formats preferred min max hdate
    · next hdate =>
      split at h
      · next htime =>
        cases h
        exact .dateTime formats preferred min max (Bool.eq_false_iff.2 hdate) htime
      · cases h
  | boolean =>
    simp only at h
    split at h
    · next htrue =>
      cases h
      exact .boolean true htrue
    · split at h
      · next hfalse =>
        cases h
        exact .boolean false hfalse
      · cases h
  | picture accept fileSize portrait =>
    obtain ⟨⟨mimeType, content⟩, hsplit, h⟩ := bind_eq_ok.1 h
    have hsplit := okOr_eq_ok.1 hsplit
    cases portrait with
    | true =>
      obtain ⟨bytes, hbytes, h⟩ := bind_eq_ok.1 h
      obtain rfl := pure_eq_ok.1 h
      exact .portrait accept fileSize hsplit hbytes
    | false =>
      cases h
      exact .picture accept fileSize hsplit
  | swiyuPicture | object | array => cases h

/-- What is written for a claim comes back exactly if the claim is readable. -/
theorem leaf_reads_iff (laws : env.Laws) (h : mapToCiboriumValue env c = .ok value) :
    buildJsonValue env.toEnvironment value = .ok (.string (claimText env c)) ↔
      LeafReadable env c := by
  obtain ⟨d, datatype, hd, hdt⟩ := exists_datatype h
  rw [leafReadable_iff hd hdt]
  cases writtenAs_of_mapToCiboriumValue h hd hdt with
  | string pattern => exact iff_of_true rfl (by simp)
  | number min max hn =>
    rw [buildJsonValue_cborInteger, string.injEq, ← isCborNumber_iff hn]
    simp
  | fullDate formats preferred min max hdate =>
    refine iff_of_true ?_ (by simp)
    rw [buildJsonValue, if_neg (by decide), if_pos rfl, handleDate_text hdate]
  | dateTime formats preferred min max hdate htime =>
    refine iff_of_true ?_ (by simp)
    rw [buildJsonValue, if_pos rfl, handleDate_text htime]
  | boolean b hb =>
    refine iff_of_true ?_ (by simp)
    rw [buildJsonValue, hb]
  | portrait accept fileSize hsplit hbytes =>
    rw [portrait_reads_iff laws hsplit hbytes]
    simp
  | picture accept fileSize hsplit => exact iff_of_true (picture_reads laws hsplit) (by simp)

/-! ### Kinds of written values -/

lemma cborInteger_of_isCborNumber (hn : parseSigned (2 ^ 127) text = .ok n)
    (h : IsCborNumber text) : cborInteger n = .integer n :=
  if_pos ((isCborNumber_iff hn).1 h).1

/-- Readable claims of one data type are written as values of one type, if they are no dates in
different formats. -/
lemma isSameType_of_writtenAs {text' : Str} {value' : CborValue}
    (h : WrittenAs env text datatype value) (h' : WrittenAs env text' datatype value')
    (hnumber : ∀ min max, datatype = .number min max → IsCborNumber text ∧ IsCborNumber text')
    (hdates : ∀ formats preferred min max, datatype = .date formats preferred min max →
      env.isFullDate text = env.isFullDate text') : isSameType value value' = true := by
  cases h with
  | string => cases h' with | string => rfl
  | number min max hn =>
    cases h' with
    | number _ _ hn' =>
      obtain ⟨htext, htext'⟩ := hnumber min max rfl
      rw [cborInteger_of_isCborNumber hn htext, cborInteger_of_isCborNumber hn' htext']
      rfl
  | fullDate formats preferred min max hdate =>
    cases h' with
    | fullDate => rfl
    | dateTime _ _ _ _ hdate' _ =>
      have heq := hdates formats preferred min max rfl
      rw [hdate, hdate'] at heq
      cases heq
  | dateTime formats preferred min max hdate htime =>
    cases h' with
    | fullDate _ _ _ _ hdate' =>
      have heq := hdates formats preferred min max rfl
      rw [hdate, hdate'] at heq
      cases heq
    | dateTime => rfl
  | boolean => cases h' with | boolean => rfl
  | portrait => cases h' with | portrait => rfl
  | picture => cases h' with | picture => rfl

lemma exists_tag_of_date {min max : Option Str}
    (h : WrittenAs env text (.date formats preferred min max) value) :
    value = .tag (if env.isFullDate text then fullDateTag else tdateTag) (.text text) := by
  cases h with
  | fullDate _ _ _ _ hdate => rw [if_pos hdate]
  | dateTime _ _ _ _ hdate _ => rw [if_neg (by simp [hdate])]

variable {first : CborValue}

lemma exists_tag_of_isSameType {tag : Nat}
    (h : isSameType (.tag tag value) first = true) : ∃ value', first = .tag tag value' := by
  cases first with
  | tag tag' value' =>
    obtain rfl : tag = tag' := of_decide_eq_true h
    exact ⟨value', rfl⟩
  | integer | bytes | float | text | bool | null | array | map => cases h

/-- Dates that are written as values of the type of a third one are in the same format. -/
lemma isFullDate_of_isSameType {text' : Str} {formats' : List DateFormat}
    {preferred' : Option DateFormat} {min max min' max' : Option Str} {value' : CborValue}
    (h : WrittenAs env text (.date formats preferred min max) value)
    (h' : WrittenAs env text' (.date formats' preferred' min' max') value')
    (hsame : isSameType value first = true) (hsame' : isSameType value' first = true) :
    env.isFullDate text = env.isFullDate text' := by
  rw [exists_tag_of_date h] at hsame
  rw [exists_tag_of_date h'] at hsame'
  obtain ⟨u, rfl⟩ := exists_tag_of_isSameType hsame
  obtain ⟨u', hu'⟩ := exists_tag_of_isSameType hsame'
  have htag : ∀ a b : Bool, (if a then fullDateTag else tdateTag) =
      (if b then fullDateTag else tdateTag) → a = b := by decide
  exact htag _ _ (CborValue.tag.inj hu').1

end Leaf

/-! ### Containers -/

variable {value : CborValue} {l : Str}

section Container

variable {env : IssuerEnvironment} {claims : List PublishedClaim} {fields : List (Str × JsonValue)}
  {path : Str} {i : Nat} {j : JsonValue} {first : CborValue} {rest : List CborValue}
  {js : List JsonValue}

lemma buildCiboriumFields_eq_ok_iff {items : List (CborValue × CborValue)} :
    buildCiboriumFields env claims path fields = .ok items ↔
      Forall₂ (fun f item => item.1 = .text f.1 ∧
        buildCiboriumValue env claims (subPath path f.1) f.2 = .ok item.2) fields items := by
  induction fields generalizing items with
  | nil =>
    rw [buildCiboriumFields, Except.ok.injEq, forall₂_nil_left_iff]
    exact eq_comm
  | cons f fields ih =>
    simp only [buildCiboriumFields, ok_iffs, ih]
    constructor
    · rintro ⟨value, hval, rest, hrest, rfl⟩
      exact .cons ⟨rfl, hval⟩ hrest
    · rintro (_ | ⟨⟨hkey, hval⟩, hrest⟩)
      exact ⟨_, hval, _, hrest, by rw [← hkey]⟩

variable {values : List JsonValue} {items : List CborValue}

lemma buildCiboriumItems_eq_ok_iff :
    buildCiboriumItems env claims path i values = .ok items ↔
      Forall₂ (fun e item => buildCiboriumValue env claims (subPath path e.1) e.2 = .ok item)
        (indexedFrom i values) items := by
  have heq : buildCiboriumItems env claims path i values = (indexedFrom i values).mapM fun e =>
      buildCiboriumValue env claims (subPath path e.1) e.2 := by
    induction values generalizing i with
    | nil => rfl
    | cons v values ih => rw [buildCiboriumItems, indexedFrom, mapM_cons, ih]
  rw [heq, mapM_eq_ok]

lemma buildJsonValues_eq_ok_iff {env : Environment} :
    buildJsonValues env items = .ok values ↔
      Forall₂ (fun item v => buildJsonValue env item = .ok v) items values := by
  have heq : buildJsonValues env items = items.mapM (buildJsonValue env) := by
    induction items with
    | nil => rfl
    | cons item items ih => rw [buildJsonValues, mapM_cons, ih]
  rw [heq, mapM_eq_ok]

/-- The entries of a map with different keys are read one by one. -/
lemma buildJsonFields_eq_ok_iff {env : Environment} {items : List (CborValue × CborValue)}
    {keys : List Str} (hkeys : items.map Prod.fst = keys.map CborValue.text)
    {content result : List (Str × JsonValue)} (hnd : (content.map Prod.fst ++ keys).Nodup) :
    buildJsonFields env items content = .ok result ↔
      ∃ fields, result = content ++ fields ∧ Forall₂ (fun item f => item.1 = .text f.1 ∧
        buildJsonValue env item.2 = .ok f.2) items fields := by
  induction items generalizing keys content with
  | nil =>
    rw [buildJsonFields, Except.ok.injEq]
    simp only [forall₂_nil_left_iff, exists_eq_right, append_nil]
    exact eq_comm
  | cons item items ih =>
    obtain ⟨key, value⟩ := item
    cases keys with
    | nil => cases hkeys
    | cons k keys =>
      obtain ⟨hkey, hkeys'⟩ := cons.inj hkeys
      obtain rfl : key = .text k := hkey
      have hfr : k ∉ content.map Prod.fst := fun hmem =>
        (nodup_append.1 hnd).2.2 k hmem k mem_cons_self rfl
      have hnd' : ∀ v, ((content ++ [(k, v)]).map Prod.fst ++ keys).Nodup := fun v => by
        rwa [map_append, append_assoc]
      rw [buildJsonFields]
      simp only [CborValue.asText, ok_iffs, some.injEq, exists_eq_left', mapInsert_of_not_mem _ hfr,
        ih hkeys' (hnd' _)]
      constructor
      · rintro ⟨v, hv, fields, rfl, hall⟩
        exact ⟨(k, v) :: fields, by simp, .cons ⟨rfl, hv⟩ hall⟩
      · rintro ⟨_, rfl, _ | ⟨⟨hkey, hv⟩, hall⟩⟩
        obtain rfl := CborValue.text.inj hkey
        exact ⟨_, hv, _, by simp, hall⟩

/-- An entry of a container of claims and the entry that is read for it. -/
def Relays (env : IssuerEnvironment) (claims : List PublishedClaim) (q : List Str)
    (e f : Str × JsonValue) : Prop :=
  e.1 = f.1 ∧ ∃ value, buildCiboriumValue env claims (pathKey (q ++ [e.1])) e.2 = .ok value ∧
    buildJsonValue env.toEnvironment value = .ok f.2

variable {q : List Str}

lemma subPath_pathKey (hq : q ≠ []) (l : Str) : subPath (pathKey q) l = pathKey (q ++ [l]) := by
  rw [pathKey_append hq (cons_ne_nil _ _), subPath]
  simp [pathKey]

/-- An object is written with all its fields, and what is read has the same fields. -/
lemma object_relays_iff (hq : q ≠ []) (hnd : (fields.map Prod.fst).Nodup)
    (h : buildCiboriumValue env claims (pathKey q) (.object fields) = .ok value) :
    buildJsonValue env.toEnvironment value = .ok j ↔
      ∃ fields', j = .object fields' ∧ Forall₂ (Relays env claims q) fields fields' := by
  rw [buildCiboriumValue, bind_eq_ok] at h
  obtain ⟨items, hitems, h⟩ := h
  obtain rfl := pure_eq_ok.1 h
  rw [buildCiboriumFields_eq_ok_iff] at hitems
  have hkeys : items.map Prod.fst = (fields.map Prod.fst).map CborValue.text := by
    clear hnd h
    induction hitems with
    | nil => rfl
    | cons hitem _ ih => rw [map_cons, map_cons, map_cons, hitem.1, ih]
  have hread : ∀ result, buildJsonFields env.toEnvironment items [] = .ok result ↔ _ :=
    fun result => buildJsonFields_eq_ok_iff hkeys (by simpa using hnd)
  have hall : ∀ fields', Forall₂ (fun item f => item.1 = .text f.1 ∧
      buildJsonValue env.toEnvironment item.2 = .ok f.2) items fields' ↔
      Forall₂ (Relays env claims q) fields fields' := by
    clear hread hkeys hnd h
    induction hitems with
    | nil => simp
    | @cons e item _ _ hitem _ ih =>
      obtain ⟨hkey, hval⟩ := hitem
      rw [subPath_pathKey hq] at hval
      simp [forall₂_cons_left_iff, ih, Relays, hkey, hval]
  rw [buildJsonValue, bind_eq_ok]
  simp only [hread, pure_eq_ok, nil_append, hall]
  constructor
  · rintro ⟨_, ⟨_, rfl, hrel⟩, rfl⟩
    exact ⟨_, rfl, hrel⟩
  · rintro ⟨_, rfl, hrel⟩
    exact ⟨_, ⟨_, rfl, hrel⟩, rfl⟩

lemma exists_items (hq : q ≠ [])
    (h : buildCiboriumValue env claims (pathKey q) (.array values) = .ok value) :
    ∃ items, value = .array items ∧ Forall₂ (fun e item =>
      buildCiboriumValue env claims (pathKey (q ++ [e.1])) e.2 = .ok item) (indexed values) items := by
  rw [buildCiboriumValue, bind_eq_ok] at h
  obtain ⟨items, hitems, h⟩ := h
  obtain rfl := pure_eq_ok.1 h
  refine ⟨items, rfl, (buildCiboriumItems_eq_ok_iff.1 hitems).imp fun e item hitem => ?_⟩
  rwa [subPath_pathKey hq] at hitem

lemma exists_child (hq : q ≠ []) (h : buildCiboriumValue env claims (pathKey q) j = .ok value)
    {u : JsonValue} (hu : j.children.lookup l = some u) :
    ∃ item, buildCiboriumValue env claims (pathKey (q ++ [l])) u = .ok item := by
  cases j with
  | null | bool | number | string => cases hu
  | array values =>
    obtain ⟨items, -, hitems⟩ := exists_items hq h
    obtain ⟨item, -, hitem⟩ := hitems.exists_of_mem_left (mem_of_lookup hu)
    exact ⟨item, hitem⟩
  | object fields =>
    rw [buildCiboriumValue, bind_eq_ok] at h
    obtain ⟨items, hitems, -⟩ := h
    rw [buildCiboriumFields_eq_ok_iff] at hitems
    obtain ⟨item, -, -, hitem⟩ := hitems.exists_of_mem_left (mem_of_lookup hu)
    rw [subPath_pathKey hq] at hitem
    exact ⟨item.2, hitem⟩

/-- An array is read if its elements are of the type of the first one, or as a picture. -/
lemma buildJsonValue_array_cases {env : Environment}
    (h : buildJsonValue env (.array (first :: rest)) = .ok j) :
    (∃ js, j = .array js ∧ (∀ item ∈ first :: rest, isSameType item first = true) ∧
      Forall₂ (fun item v => buildJsonValue env item = .ok v) (first :: rest) js) ∨
    ∃ s, j = .string s := by
  rw [buildJsonValue] at h
  split at h
  · next hsame =>
    simp only [ok_iffs, buildJsonValues_eq_ok_iff] at h
    obtain ⟨js, hjs, rfl⟩ := h
    exact .inl ⟨js, rfl, all_eq_true.1 hsame, hjs⟩
  · right
    unfold handlePicture at h
    split at h
    · simp only [ok_iffs] at h
      obtain ⟨_, -, _, -, rfl⟩ := h
      exact ⟨_, rfl⟩
    · cases h

lemma relays_indexed (hwr : Forall₂ (fun e item =>
      buildCiboriumValue env claims (pathKey (q ++ [e.1])) e.2 = .ok item)
      (indexedFrom i values) items)
    (hread : Forall₂ (fun item v => buildJsonValue env.toEnvironment item = .ok v) items js) :
    Forall₂ (Relays env claims q) (indexedFrom i values) (indexedFrom i js) := by
  induction values generalizing i items js with
  | nil =>
    obtain rfl := forall₂_nil_left_iff.1 hwr
    obtain rfl := forall₂_nil_left_iff.1 hread
    exact .nil
  | cons v values ih =>
    obtain _ | ⟨hval, hwr⟩ := hwr
    obtain _ | ⟨hj, hread⟩ := hread
    exact .cons ⟨rfl, _, hval, hj⟩ (ih hwr hread)

lemma exists_lookup_of_relays {es fs : List (Str × JsonValue)}
    (h : Forall₂ (Relays env claims q) es fs) {u : JsonValue} (hl : es.lookup l = some u) :
    ∃ value j, fs.lookup l = some j ∧
      buildCiboriumValue env claims (pathKey (q ++ [l])) u = .ok value ∧
      buildJsonValue env.toEnvironment value = .ok j := by
  induction h with
  | nil => cases hl
  | @cons e f es fs hrel _ ih =>
    obtain ⟨hlab, value, hval, hj⟩ := hrel
    by_cases heq : l = e.1
    · subst heq
      rw [lookup_cons_self] at hl
      cases hl
      refine ⟨value, f.2, ?_, hval, hj⟩
      rw [hlab, lookup_cons_self]
    · rw [lookup_cons_of_ne heq] at hl
      rw [hlab] at heq
      rw [lookup_cons_of_ne heq]
      exact ih hl

end Container

/-! ### Readable values -/

section Readable

variable (env : IssuerEnvironment) (claims : List PublishedClaim)

/-- The claim is a scalar element of an array of claims. -/
def IsElement (q : List Str) (values : List JsonValue) (c : PublishedClaim) : Prop :=
  ∃ l u, (indexed values).lookup l = some u ∧ u.kind = .scalar ∧ c.key = pathKey (q ++ [l])

/-- The elements of an array are all objects, all arrays, or all of one data type. -/
def OneType (q : List Str) (values : List JsonValue) : Prop :=
  (∀ v ∈ values, v.kind = .object) ∨ (∀ v ∈ values, v.kind = .array) ∨
    ((∀ v ∈ values, v.kind = .scalar) ∧
      ∃ d, ∀ c ∈ claims, IsElement q values c → c.datatype = some d)

def IsDateClaim (c : PublishedClaim) : Prop :=
  ∃ d formats preferred min max, c.datatype = some d ∧
    env.datatypeConfig d = some (.date formats preferred min max)

/-- The dates in an array are all full dates, or none of them is. -/
def DatesAgree (q : List Str) (values : List JsonValue) : Prop :=
  ∀ c ∈ claims, ∀ c' ∈ claims, IsElement q values c → IsElement q values c' →
    IsDateClaim env c → IsDateClaim env c' →
      env.isFullDate (claimText env c) = env.isFullDate (claimText env c')

/-- The claims in a value at a path can be read again. -/
structure ReadableAt (q : List Str) (v : JsonValue) : Prop where
  leaf : ∀ r u, v.atPath r = some u → u.kind = .scalar → ∀ c ∈ claims,
    c.key = pathKey (q ++ r) → LeafReadable env c
  dates : ∀ r values, v.atPath r = some (.array values) → DatesAgree env claims (q ++ r) values

/-- What is read has the text of each claim in its place. -/
def ReadsAs (q : List Str) (v j : JsonValue) : Prop :=
  ∀ r u, v.atPath r = some u → u.kind = .scalar → ∀ c ∈ claims, c.key = pathKey (q ++ r) →
    j.atPath r = some (.string (claimText env c))

variable {env claims} {q : List Str} {v : JsonValue}

lemma exists_claim_of_scalar
    (h : buildCiboriumValue env claims (pathKey q) v = .ok value) (hscl : v.kind = .scalar)
    (hnull : v ≠ .null) :
    ∃ c ∈ claims, c.key = pathKey q ∧ mapToCiboriumValue env c = .ok value := by
  have hfind : ∃ c, claims.find? (fun c => c.key = pathKey q) = some c ∧
      mapToCiboriumValue env c = .ok value := by
    cases v with
    | null => exact absurd rfl hnull
    | array | object => cases hscl
    | bool | number | string =>
      obtain ⟨c, hc, h⟩ := bind_eq_ok.1 h
      exact ⟨c, okOr_eq_ok.1 hc, h⟩
  obtain ⟨c, hc, h⟩ := hfind
  exact ⟨c, mem_of_find?_eq_some hc, by simpa using find?_some hc, h⟩

variable (claims q v) in
/-- A claim below a value. -/
def ClaimBelow : Prop :=
  ∃ r u c, v.atPath r = some u ∧ u.kind = .scalar ∧ c ∈ claims ∧ c.key = pathKey (q ++ r)

lemma atPath_child {w : JsonValue} (hw : v.children.lookup l = some w) (r : List Str) :
    v.atPath (l :: r) = w.atPath r := by
  rw [atPath, hw, bind_some]

lemma claim_above {w : JsonValue} (hw : v.children.lookup l = some w)
    (h : ClaimBelow claims (q ++ [l]) w) : ClaimBelow claims q v := by
  obtain ⟨r, u, c, hu, hscl, hc, hkey⟩ := h
  refine ⟨l :: r, u, c, (atPath_child hw r).trans hu, hscl, hc, ?_⟩
  rw [hkey, append_assoc, singleton_append]

/-- Below every written value there is a claim. -/
lemma exists_claim_below (hfilled : v.Filled) (hq : q ≠ [])
    (h : buildCiboriumValue env claims (pathKey q) v = .ok value) :
    ClaimBelow claims q v := by
  induction hfilled generalizing q value with
  | scalar hscl hnull =>
    obtain ⟨c, hc, hkey, -⟩ := exists_claim_of_scalar h hscl hnull
    exact ⟨[], _, c, rfl, hscl, hc, by rwa [append_nil]⟩
  | @array values hne hvals ih =>
    cases values with
    | nil => exact absurd rfl hne
    | cons v values =>
      have hv : (JsonValue.array (v :: values)).children.lookup (toString 0).toList = some v := by
        rfl
      obtain ⟨item, hitem⟩ := exists_child hq h hv
      exact claim_above hv (ih v mem_cons_self (by simp) hitem)
  | @object fields hne hnd hfields ih =>
    cases fields with
    | nil => exact absurd rfl hne
    | cons f fields =>
      have hf : (JsonValue.object (f :: fields)).children.lookup f.1 = some f.2 := by
        rw [children, lookup_cons_self]
      obtain ⟨item, hitem⟩ := exists_child hq h hf
      exact claim_above hf (ih f mem_cons_self (by simp) hitem)

variable {j u : JsonValue}

lemma ReadsAs.child {j' : JsonValue} (h : ReadsAs env claims q v j)
    (hu : v.children.lookup l = some u) (hj : j.children.lookup l = some j') :
    ReadsAs env claims (q ++ [l]) u j' := by
  intro r w hw hscl c hc hkey
  rw [append_assoc] at hkey
  have hread := h (l :: r) w ((atPath_child hu r).trans hw) hscl c hc hkey
  rwa [atPath_child hj] at hread

lemma readsAs_of_children (hkind : v.kind ≠ .scalar)
    (h : ∀ l u, v.children.lookup l = some u →
      ∃ j', j.children.lookup l = some j' ∧ ReadsAs env claims (q ++ [l]) u j') :
    ReadsAs env claims q v j := by
  intro r w hw hscl c hc hkey
  cases r with
  | nil =>
    cases hw
    exact absurd hscl hkind
  | cons l r =>
    obtain ⟨u, hu, hw⟩ := bind_eq_some_iff.1 hw
    obtain ⟨j', hj', hread⟩ := h l u hu
    rw [atPath_child hj']
    refine hread r w hw hscl c hc ?_
    rwa [append_assoc]

lemma ReadableAt.child (h : ReadableAt env claims q v)
    (hu : v.children.lookup l = some u) : ReadableAt env claims (q ++ [l]) u := by
  constructor
  · intro r w hw hscl c hc hkey
    rw [append_assoc] at hkey
    exact h.leaf (l :: r) w ((atPath_child hu r).trans hw) hscl c hc hkey
  · intro r values hvals
    rw [append_assoc]
    exact h.dates (l :: r) values ((atPath_child hu r).trans hvals)

lemma readableAt_of_children (hkind : v.kind ≠ .scalar)
    (hdates : ∀ values, v = .array values → DatesAgree env claims q values)
    (h : ∀ l u, v.children.lookup l = some u → ReadableAt env claims (q ++ [l]) u) :
    ReadableAt env claims q v := by
  constructor
  · intro r w hw hscl c hc hkey
    cases r with
    | nil =>
      cases hw
      exact absurd hscl hkind
    | cons l r =>
      obtain ⟨u, hu, hw⟩ := bind_eq_some_iff.1 hw
      refine (h l u hu).leaf r w hw hscl c hc ?_
      rwa [append_assoc]
  · intro r values hvals
    cases r with
    | nil =>
      rw [append_nil]
      exact hdates values (some.inj hvals)
    | cons l r =>
      obtain ⟨u, hu, hvals⟩ := bind_eq_some_iff.1 hvals
      have hch := (h l u hu).dates r values hvals
      rwa [append_assoc] at hch

lemma oneType_child
    (hone : ∀ r values, v.atPath r = some (.array values) → OneType claims (q ++ r) values)
    (hu : v.children.lookup l = some u) (r : List Str) (values : List JsonValue)
    (h : u.atPath r = some (.array values)) : OneType claims (q ++ [l] ++ r) values := by
  rw [append_assoc]
  exact hone (l :: r) values ((atPath_child hu r).trans h)

/-- A scalar comes back exactly if its claim is readable. -/
lemma scalar_reads_iff (laws : env.Laws) (hnd : (claims.map PublishedClaim.key).Nodup)
    (hscl : v.kind = .scalar) (hnull : v ≠ .null)
    (h : buildCiboriumValue env claims (pathKey q) v = .ok value) :
    (∃ j, buildJsonValue env.toEnvironment value = .ok j ∧ ReadsAs env claims q v j) ↔
      ReadableAt env claims q v := by
  obtain ⟨c, hc, hkey, hval⟩ := exists_claim_of_scalar h hscl hnull
  -- the only path below a scalar is the empty one, and its claim is this one
  have hpath : ∀ r w, v.atPath r = some w → r = [] := by
    intro r w hw
    exact (eq_of_prefix_of_scalar rfl hscl hw nil_prefix).symm
  constructor
  · rintro ⟨j, hj, hread⟩
    have htext := hread [] v rfl hscl c hc (by rwa [append_nil])
    rw [some.inj htext] at hj
    have hleaf := (leaf_reads_iff laws hval).1 hj
    constructor
    · intro r w hw _ c' hc' hkey'
      obtain rfl := hpath r w hw
      rw [append_nil] at hkey'
      rwa [← inj_on_of_nodup_map hnd hc hc' (hkey.trans hkey'.symm)]
    · intro r values hvals
      obtain rfl := hpath r _ hvals
      rw [some.inj hvals] at hscl
      cases hscl
  · intro hrdb
    have hleaf := hrdb.leaf [] v rfl hscl c hc (by rwa [append_nil])
    refine ⟨_, (leaf_reads_iff laws hval).2 hleaf, fun r w hw _ c' hc' hkey' => ?_⟩
    obtain rfl := hpath r w hw
    rw [append_nil] at hkey'
    rw [inj_on_of_nodup_map hnd hc hc' (hkey.trans hkey'.symm)]
    rfl

lemma exists_container (h : buildCiboriumValue env claims (pathKey q) v = .ok value) :
    (v.kind = .object → ∃ entries, value = .map entries) ∧
      (v.kind = .array → ∃ items, value = .array items) := by
  cases v with
  | null | bool | number | string => exact ⟨nofun, nofun⟩
  | array | object =>
    simp only [buildCiboriumValue, ok_iffs] at h
    obtain ⟨items, -, rfl⟩ := h
    simp [kind]

section Array

variable {values : List JsonValue} {items : List CborValue}
  (hitems : Forall₂ (fun e item =>
    buildCiboriumValue env claims (pathKey (q ++ [e.1])) e.2 = .ok item) (indexed values) items)
include hitems

lemma exists_element_of_item {item : CborValue} (hitem : item ∈ items) :
    ∃ l u, (indexed values).lookup l = some u ∧ u ∈ values ∧
      buildCiboriumValue env claims (pathKey (q ++ [l])) u = .ok item := by
  obtain ⟨⟨l, u⟩, he, hval⟩ := hitems.exists_of_mem_right hitem
  exact ⟨l, u, (lookup_eq_some_iff_mem (nodup_indexedFrom 0 values)).2 he, mem_of_mem_indexed he, hval⟩

lemma exists_item_of_isElement (hnd : (claims.map PublishedClaim.key).Nodup)
    (hfilled : ∀ v ∈ values, JsonValue.Filled v) (hc : c ∈ claims) (helt : IsElement q values c) :
    ∃ item ∈ items, mapToCiboriumValue env c = .ok item := by
  obtain ⟨l, u, hu, hscl, hkey⟩ := helt
  obtain ⟨item, hitem, hval⟩ := hitems.exists_of_mem_left (mem_of_lookup hu)
  obtain ⟨c', hc', hkey', hmap⟩ := exists_claim_of_scalar hval hscl
    (hfilled _ (mem_of_mem_indexed (mem_of_lookup hu))).ne_null
  rw [inj_on_of_nodup_map hnd hc hc' (hkey.trans hkey'.symm)]
  exact ⟨item, hitem, hmap⟩

/-- The items of a readable array of one type are of one type. -/
lemma isSameType_of_readable (hfilled : ∀ v ∈ values, JsonValue.Filled v)
    (hone : OneType claims q values) (hrdb : ReadableAt env claims q (.array values))
    {a b : CborValue} (ha : a ∈ items) (hb : b ∈ items) : isSameType a b = true := by
  obtain ⟨la, u, hu, humem, ha⟩ := exists_element_of_item hitems ha
  obtain ⟨lb, w, hw, hwmem, hb⟩ := exists_element_of_item hitems hb
  rcases hone with hobje | harrays | ⟨hscal, d, hd⟩
  · obtain ⟨_, rfl⟩ := (exists_container ha).1 (hobje u humem)
    obtain ⟨_, rfl⟩ := (exists_container hb).1 (hobje w hwmem)
    rfl
  · obtain ⟨_, rfl⟩ := (exists_container ha).2 (harrays u humem)
    obtain ⟨_, rfl⟩ := (exists_container hb).2 (harrays w hwmem)
    rfl
  · -- two claims of the same data type
    obtain ⟨c, hc, hkey, hca⟩ :=
      exists_claim_of_scalar ha (hscal u humem) (hfilled u humem).ne_null
    obtain ⟨c', hc', hkey', hcb⟩ :=
      exists_claim_of_scalar hb (hscal w hwmem) (hfilled w hwmem).ne_null
    have helt : IsElement q values c := ⟨la, u, hu, hscal u humem, hkey⟩
    have helt' : IsElement q values c' := ⟨lb, w, hw, hscal w hwmem, hkey'⟩
    have hleaf := hrdb.child hu |>.leaf [] u rfl (hscal u humem) c hc (by simpa using hkey)
    have hleaf' :=
      hrdb.child hw |>.leaf [] w rfl (hscal w hwmem) c' hc' (by simpa using hkey')
    obtain ⟨d₁, datatype, hd₁, hdt⟩ := exists_datatype hca
    obtain rfl := some.inj ((hd c hc helt).symm.trans hd₁)
    have hd' := hd c' hc' helt'
    refine isSameType_of_writtenAs (writtenAs_of_mapToCiboriumValue hca hd₁ hdt)
      (writtenAs_of_mapToCiboriumValue hcb hd' hdt) ?_ ?_
    · rintro min max rfl
      exact ⟨hleaf.number _ min max hd₁ hdt, hleaf'.number _ min max hd' hdt⟩
    · rintro formats preferred min max rfl
      have hdates := hrdb.dates [] values rfl
      rw [append_nil] at hdates
      exact hdates c hc c' hc' helt helt' ⟨_, _, _, _, _, hd₁, hdt⟩ ⟨_, _, _, _, _, hd', hdt⟩

lemma datesAgree_of_isSameType (hnd : (claims.map PublishedClaim.key).Nodup)
    (hfilled : ∀ v ∈ values, JsonValue.Filled v)
    (hsame : ∀ item ∈ items, isSameType item first = true) : DatesAgree env claims q values := by
  intro c hc c' hc' helt helt' hdate hdate'
  obtain ⟨d, _, _, _, _, hd, hdt⟩ := hdate
  obtain ⟨d', _, _, _, _, hd', hdt'⟩ := hdate'
  obtain ⟨item, hitem, hmap⟩ := exists_item_of_isElement hitems hnd hfilled hc helt
  obtain ⟨item', hitem', hmap'⟩ := exists_item_of_isElement hitems hnd hfilled hc' helt'
  exact isFullDate_of_isSameType (writtenAs_of_mapToCiboriumValue hmap hd hdt)
    (writtenAs_of_mapToCiboriumValue hmap' hd' hdt') (hsame item hitem) (hsame item' hitem')

end Array

section Children

variable (hkind : v.kind ≠ .scalar) (hrel : Forall₂ (Relays env claims q) v.children j.children)
  (hch : ∀ l u item, v.children.lookup l = some u →
    buildCiboriumValue env claims (pathKey (q ++ [l])) u = .ok item →
    ((∃ j, buildJsonValue env.toEnvironment item = .ok j ∧ ReadsAs env claims (q ++ [l]) u j) ↔
      ReadableAt env claims (q ++ [l]) u))
include hkind hrel hch

lemma readableAt_of_relays (hdates : ∀ values, v = .array values → DatesAgree env claims q values)
    (hread : ReadsAs env claims q v j) : ReadableAt env claims q v := by
  refine readableAt_of_children hkind hdates fun l u hu => ?_
  obtain ⟨item, j', hj', hitem, hjitem⟩ := exists_lookup_of_relays hrel hu
  exact (hch l u item hu hitem).1 ⟨j', hjitem, hread.child hu hj'⟩

lemma readsAs_of_relays (hrdb : ReadableAt env claims q v) : ReadsAs env claims q v j := by
  refine readsAs_of_children hkind fun l u hu => ?_
  obtain ⟨item, j', hj', hitem, hjitem⟩ := exists_lookup_of_relays hrel hu
  obtain ⟨j'', hj'', hreads⟩ := (hch l u item hu hitem).2 (hrdb.child hu)
  obtain rfl := ok_unique hjitem hj''
  exact ⟨j', hj', hreads⟩

end Children

/-- An element is read as it was written, if and only if it is readable. -/
theorem exists_reads_iff (laws : env.Laws) (hnd : (claims.map PublishedClaim.key).Nodup)
    (hfilled : v.Filled) (hq : q ≠ [])
    (hone : ∀ r values, v.atPath r = some (.array values) → OneType claims (q ++ r) values)
    (h : buildCiboriumValue env claims (pathKey q) v = .ok value) :
    (∃ j, buildJsonValue env.toEnvironment value = .ok j ∧ ReadsAs env claims q v j) ↔
      ReadableAt env claims q v := by
  induction hfilled generalizing q value with
  | scalar hscl hnull => exact scalar_reads_iff laws hnd hscl hnull h
  | @array values hne hvals ih =>
    obtain ⟨items, rfl, hitems⟩ := exists_items hq h
    -- the elements are written and read one by one
    have hch := fun l u item (hu : (JsonValue.array values).children.lookup l = some u)
        (hitem : _ = Except.ok item) =>
      ih u (mem_of_mem_indexed (mem_of_lookup hu)) (by simp) (oneType_child hone hu) hitem
    cases items with
    | nil =>
      have hnil := forall₂_nil_right_iff.1 hitems
      rw [← map_snd_indexed values, hnil] at hne
      exact absurd rfl hne
    | cons first rest =>
      constructor
      · rintro ⟨j, hj, hread⟩
        rcases buildJsonValue_array_cases hj with ⟨js, rfl, hsame, hjs⟩ | ⟨s, rfl⟩
        · refine readableAt_of_relays (j := .array js) (by simp [kind]) (relays_indexed hitems hjs) hch
            ?_ hread
          rintro _ ⟨⟩
          exact datesAgree_of_isSameType hitems hnd hvals hsame
        · -- a picture has nothing below it
          obtain ⟨r, u, c, hu, hscl, hc, hkey⟩ := exists_claim_below (.array hne hvals) hq h
          have hpath := hread r u hu hscl c hc hkey
          cases r with
          | nil =>
            cases hu
            cases hscl
          | cons l r => cases hpath
      · intro hrdb
        have hsame : ∀ item ∈ first :: rest, isSameType item first = true := fun item hitem =>
          isSameType_of_readable hitems hvals (by simpa using hone [] values rfl) hrdb hitem
            mem_cons_self
        have hread : ∀ item ∈ first :: rest, ∃ j, buildJsonValue env.toEnvironment item = .ok j := by
          intro item hitem
          obtain ⟨l, u, hu, -, hwr⟩ := exists_element_of_item hitems hitem
          obtain ⟨j, hj, -⟩ := (hch l u item hu hwr).2 (hrdb.child hu)
          exact ⟨j, hj⟩
        obtain ⟨js, hjs⟩ := Forall₂.exists_of_forall hread
        refine ⟨.array js, ?_, readsAs_of_relays (by simp [kind]) (relays_indexed hitems hjs) hch hrdb⟩
        rw [buildJsonValue, if_pos (all_eq_true.2 hsame)]
        exact bind_eq_ok.2 ⟨js, buildJsonValues_eq_ok_iff.2 hjs, rfl⟩
  | @object fields hne huniq hfields ih =>
    have hch := fun l u item (hu : (JsonValue.object fields).children.lookup l = some u)
        (hitem : _ = Except.ok item) =>
      ih (l, u) (mem_of_lookup hu) (by simp) (oneType_child hone hu) hitem
    constructor
    · rintro ⟨j, hj, hread⟩
      obtain ⟨fields', rfl, hrel⟩ := (object_relays_iff hq huniq h).1 hj
      exact readableAt_of_relays (j := .object fields') (by simp [kind]) hrel hch (by simp) hread
    · intro hrdb
      have hrelay : ∀ f ∈ fields, ∃ f', Relays env claims q f f' := by
        intro f hf
        have hu : fields.lookup f.1 = some f.2 := (lookup_eq_some_iff_mem huniq).2 hf
        obtain ⟨item, hitem⟩ := exists_child hq h hu
        obtain ⟨j, hj, -⟩ := (hch f.1 f.2 item hu hitem).2 (hrdb.child hu)
        exact ⟨(f.1, j), rfl, item, hitem, hj⟩
      obtain ⟨fields', hrel⟩ := Forall₂.exists_of_forall hrelay
      exact ⟨.object fields', (object_relays_iff hq huniq h).2 ⟨fields', rfl, hrel⟩,
        readsAs_of_relays (by simp [kind]) hrel hch hrdb⟩

end Readable

end OneCore.Mdoc
