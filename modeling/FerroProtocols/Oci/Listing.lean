import FerroProtocols.Oci.ManifestHandlers

/-! The handlers that list tags and repositories page by page, and the links in their answers. -/

namespace FerroProtocols.Oci

open BlobStore Std

/-- The parameters of a request. -/
abbrev Params := ExtTreeMap String String

/-- How the texts in a query are decoded, known only by leaving plain texts alone. -/
structure QueryDecoder where
  decode : String → String
  plain : ∀ text : String, text.toList.all isPlain = true → decode text = text

namespace QueryDecoder

variable (dec : QueryDecoder)

/-- A parameter and its value, which is empty when there is none. -/
def pair (piece : String) : String × String :=
  match Digest.splitOnce piece '=' with
  | some (name, value) => (dec.decode name, dec.decode value)
  | none => (dec.decode piece, "")

/-- The parameters of a query; of several with one name the last counts. -/
def parse (query : String) : Params :=
  ExtTreeMap.ofList (((query.toList.splitOn '&').filter fun piece => !piece.isEmpty).map fun piece =>
    dec.pair (String.ofList piece))

end QueryDecoder

/-- The bytes that a text in a query stands for: a plus sign is a blank, and a percent sign with two hex digits
behind it is a byte. -/
def formBytes : List Char → Bytes
  | [] => []
  | '+' :: rest => 32 :: formBytes rest
  | '%' :: high :: low :: rest =>
    match Hex.value high, Hex.value low with
    | some first, some second => UInt8.ofNat (16 * first + second) :: formBytes rest
    | _, _ => 37 :: formBytes (high :: low :: rest)
  | ch :: rest => textBytes ch.toString ++ formBytes rest

private theorem formBytes_of_plain {text : List Char} (plain : text.all isPlain = true) :
    formBytes text = textBytes (String.ofList text) := by
  induction text with
  | nil => rfl
  | cons ch rest ih =>
    rw [List.all_cons, Bool.and_eq_true] at plain
    have plus : ch ≠ '+' := by
      rintro rfl
      exact absurd plain.1 (by decide)
    have percent : ch ≠ '%' := by
      rintro rfl
      exact absurd plain.1 (by decide)
    have joined : String.ofList (ch :: rest) = ch.toString ++ String.ofList rest := by
      apply String.toList_inj.mp
      simp
    rw [formBytes, ih plain.2, joined]
    · simp [textBytes, String.toByteArray_append]
    · exact plus
    · exact fun _ _ _ same => absurd same percent

/-- The decoder of forms. Bytes that are no UTF-8 are replaced. -/
def formDecoder : QueryDecoder where
  decode text := (fromUtf8 (formBytes text.toList)).getD "\uFFFD"
  plain text isPlain := by
    rw [formBytes_of_plain isPlain, String.ofList_toList, fromUtf8_textBytes]
    rfl

/-- How a request for a list is answered. -/
inductive ListAnswer where
  | refused (error : OciError)
  -- Status 200, with a link to the next page if there may be one.
  | listed (names : List String) (link : Option String)
  deriving DecidableEq

/-- The link to the page after a full one. -/
def nextLink (path : String) (n : Option Nat) (names : List String) : Option String :=
  match n, names.getLast? with
  | some limit, some last =>
    if names.length = limit then
      let link := "<" ++ path ++ "?last=" ++ last ++ "&n=" ++ toString limit ++ ">; rel=\"next\""
      -- A text that cannot stand in a header is left out.
      if ManifestServer.isHeaderValue link then some link else none
    else none
  | _, _ => none

/-- One page of what a function lists, with the link that belongs to a path. -/
def listPage (list : Option String → Option Nat → List String) (path : String) (params : Params) :
    ListAnswer :=
  -- A page size that is no number counts as none.
  let n := params["n"]?.bind fun text => ContentRange.parseU64 text.toList
  let names := list params["last"]? n
  .listed names (nextLink path n names)

/-- The path of the tags of a repository. -/
def tagsPath (name : String) : String := "/v2/" ++ name ++ "/tags/list"

/-- The path of the catalog. -/
def catalogPath : String := "/v2/_catalog"

/-- List the tags of a repository. -/
def listTags (state : InMemoryState) (name : String) (params : Params) : ListAnswer :=
  match validateName name with
  | .error error => .refused error
  | .ok () => listPage (state.listTags name) (tagsPath name) params

/-- List the repositories. -/
def listCatalog (state : InMemoryState) (params : Params) : ListAnswer :=
  listPage state.listRepositories catalogPath params

/-- The address of a request. -/
structure Target where
  path : String
  query : String
  deriving DecidableEq

/-- The address a link points to. -/
def linkTarget (link : String) : Option Target :=
  match link.toList with
  | '<' :: rest =>
    match Digest.splitOnce
        (String.ofList (rest.takeWhile fun ch => decide (ch ≠ '>'))) '?' with
    | some (path, query) => some ⟨path, query⟩
    | none => none
  | _ => none

section Numbers

/-- A number is read back from its decimal text. -/
theorem parseU64_toString {number : Nat} (word : number ≤ u64Max) :
    ContentRange.parseU64 (toString number).toList = some number := by
  rw [Nat.toString_eq_ofList_toDigits, String.toList_ofList]
  exact ContentRange.parseU64_toDigits word

private theorem isPlain_toString (number : Nat) : (toString number).toList.all isPlain = true := by
  rw [Nat.toString_eq_ofList_toDigits, String.toList_ofList, List.all_eq_true]
  intro digit member
  have isDigit := Nat.isDigit_of_mem_toDigits (by decide) (by decide) member
  change ((digit.isAlpha || digit.isDigit) || _) = true
  simp [isDigit]

end Numbers

section Texts

private theorem splitOnce_append {before after : String} {sep : Char}
    (absent : ∀ ch ∈ before.toList, ch ≠ sep) :
    Digest.splitOnce (before ++ String.singleton sep ++ after) sep = some (before, after) := by
  have passed : ∀ ch ∈ before.toList, decide (ch ≠ sep) = true :=
    fun ch member => decide_eq_true (absent ch member)
  unfold Digest.splitOnce
  simp only [String.toList_append, String.toList_singleton, List.append_assoc,
    List.dropWhile_append_of_pos passed, List.takeWhile_append_of_pos passed]
  simp

private theorem ne_of_isPlain {ch : Char} (plain : isPlain ch = true) :
    ch ≠ '<' ∧ ch ≠ '>' ∧ ch ≠ '?' ∧ ch ≠ '=' ∧ ch ≠ '&' := by
  refine ⟨?_, ?_, ?_, ?_, ?_⟩ <;> rintro rfl <;> exact absurd plain (by decide)

variable {path last : String} (limit : Nat)

/-- The query that asks for the page after a name. -/
def nextQuery (last : String) (limit : Nat) : String := "last=" ++ last ++ "&n=" ++ toString limit

/-- The query that asks for the first page. -/
def firstQuery (limit : Nat) : String := "n=" ++ toString limit

/-- A link to plain names can stand in a header. -/
theorem isHeaderValue_link (plainPath : path.toList.all isPlain = true)
    (plainLast : last.toList.all isPlain = true) :
    ManifestServer.isHeaderValue
      ("<" ++ path ++ "?last=" ++ last ++ "&n=" ++ toString limit ++ ">; rel=\"next\"") = true := by
  -- The names and the number are plain, and the text around them is fixed.
  have header {text : String} (plain : text.toList.all isPlain = true) :
      ManifestServer.isHeaderValue text = true := by
    refine List.all_eq_true.mpr fun ch member => decide_eq_true (.inl ?_)
    exact toNat_of_isPlain (List.all_eq_true.mp plain ch member)
  have append {left right : String} : ManifestServer.isHeaderValue (left ++ right) =
      (ManifestServer.isHeaderValue left && ManifestServer.isHeaderValue right) := by
    simp [ManifestServer.isHeaderValue]
  rw [append, append, append, append, append, append, header plainPath, header plainLast,
    header (isPlain_toString limit)]
  decide

/-- A link to plain names points to the next query under its path. -/
theorem linkTarget_link (plainPath : path.toList.all isPlain = true) (plainLast : last.toList.all isPlain = true) :
    linkTarget ("<" ++ path ++ "?last=" ++ last ++ "&n=" ++ toString limit ++ ">; rel=\"next\"") =
      some ⟨path, nextQuery last limit⟩ := by
  have apart {text : String} (plain : text.toList.all isPlain = true) {ch : Char}
      (member : ch ∈ text.toList) := ne_of_isPlain (List.all_eq_true.mp plain ch member)
  let inside := path ++ String.singleton '?' ++ nextQuery last limit
  have spelled : ("<" ++ path ++ "?last=" ++ last ++ "&n=" ++ toString limit ++
      ">; rel=\"next\"").toList = '<' :: (inside.toList ++ '>' :: "; rel=\"next\"".toList) := by
    simp [inside, nextQuery]
  -- The address ends before the first closing bracket.
  have within : ∀ ch ∈ inside.toList, decide (ch ≠ '>') = true := by
    intro ch member
    simp only [inside, nextQuery, String.toList_append, List.mem_append] at member
    apply decide_eq_true
    rcases member with (early | mark) | ((key | middle) | next) | digits
    · exact (apart plainPath early).2.1
    · rintro rfl
      exact absurd mark (by decide)
    · rintro rfl
      exact absurd key (by decide)
    · exact (apart plainLast middle).2.1
    · rintro rfl
      exact absurd next (by decide)
    · exact (apart (isPlain_toString limit) digits).2.1
  unfold linkTarget
  rw [spelled]
  simp only [List.takeWhile_append_of_pos within]
  simp only [ne_eq, not_true_eq_false, decide_false, List.takeWhile_cons_of_neg, Bool.false_eq_true,
    not_false_eq_true, List.append_nil, String.ofList_toList, inside]
  rw [splitOnce_append fun ch member => (apart plainPath member).2.2.1]

variable (dec : QueryDecoder)

private theorem pair_eq {name value : String} (plainName : name.toList.all isPlain = true)
    (plainValue : value.toList.all isPlain = true) :
    dec.pair (name ++ String.singleton '=' ++ value) = (name, value) := by
  have absent : ∀ ch ∈ name.toList, ch ≠ '=' := fun ch member =>
    (ne_of_isPlain (List.all_eq_true.mp plainName ch member)).2.2.2.1
  simp only [QueryDecoder.pair, splitOnce_append absent, dec.plain _ plainName, dec.plain _ plainValue]

private theorem ampersand_notMem {name value : String} (plainName : name.toList.all isPlain = true)
    (plainValue : value.toList.all isPlain = true) : '&' ∉ (name ++ String.singleton '=' ++ value).toList := by
  intro member
  simp only [String.toList_append, String.toList_singleton, List.mem_append, List.mem_singleton] at member
  rcases member with (inName | equals) | inValue
  · exact (ne_of_isPlain (List.all_eq_true.mp plainName _ inName)).2.2.2.2 rfl
  · exact absurd equals (by decide)
  · exact (ne_of_isPlain (List.all_eq_true.mp plainValue _ inValue)).2.2.2.2 rfl

private theorem parse_intercalate {pairs : List (String × String)} (nonempty : pairs ≠ [])
    (plain : ∀ pair ∈ pairs, pair.1.toList.all isPlain = true ∧ pair.2.toList.all isPlain = true) :
    dec.parse (String.ofList (['&'].intercalate
      (pairs.map fun pair => (pair.1 ++ String.singleton '=' ++ pair.2).toList))) = ExtTreeMap.ofList pairs := by
  have separate : ∀ piece ∈ pairs.map fun pair => (pair.1 ++ String.singleton '=' ++ pair.2).toList,
      '&' ∉ piece := by
    intro piece member
    obtain ⟨pair, inside, rfl⟩ := List.mem_map.mp member
    exact ampersand_notMem (plain pair inside).1 (plain pair inside).2
  -- The pieces are those that were joined, and none of them is empty.
  have filled : ∀ piece ∈ pairs.map fun pair => (pair.1 ++ String.singleton '=' ++ pair.2).toList,
      (!piece.isEmpty) = true := by
    intro piece member
    obtain ⟨pair, inside, rfl⟩ := List.mem_map.mp member
    simp
  have read : ∀ pair ∈ pairs, dec.pair (String.ofList
      (pair.1 ++ String.singleton '=' ++ pair.2).toList) = pair := by
    intro pair inside
    rw [String.ofList_toList, pair_eq dec (plain pair inside).1 (plain pair inside).2]
  unfold QueryDecoder.parse
  rw [String.toList_ofList, List.splitOn_intercalate '&' separate (by simpa using nonempty),
    List.filter_eq_self.mpr filled, List.map_map]
  simp only [Function.comp_def]
  rw [List.map_congr_left read, List.map_id']

/-- The first query has a page size only. -/
theorem parse_firstQuery : (dec.parse (firstQuery limit))["n"]? = some (toString limit) ∧
      (dec.parse (firstQuery limit))["last"]? = none := by
  -- The query is one pair, joined by an equals sign.
  have joined : firstQuery limit = String.ofList (['&'].intercalate
      ([("n", toString limit)].map fun pair => (pair.1 ++ String.singleton '=' ++ pair.2).toList)) := by
    apply String.toList_inj.mp
    simp [firstQuery]
  have size : "n".toList.all isPlain = true := by decide
  have plain : ∀ pair ∈ [("n", toString limit)],
      pair.1.toList.all isPlain = true ∧ pair.2.toList.all isPlain = true := by
    intro pair member
    cases List.mem_singleton.mp member
    exact ⟨size, isPlain_toString limit⟩
  rw [joined, parse_intercalate dec (by simp) plain, ExtTreeMap.ofList_singleton]
  simp only [ExtTreeMap.getElem?_insert, LawfulEqCmp.compare_eq_iff_eq]
  simp

/-- The next query has a page size and a cursor. -/
theorem parse_nextQuery (plainLast : last.toList.all isPlain = true) :
    (dec.parse (nextQuery last limit))["n"]? = some (toString limit) ∧
      (dec.parse (nextQuery last limit))["last"]? = some last := by
  -- The query is two pairs, in the order in which the link spells them.
  have joined : nextQuery last limit = String.ofList (['&'].intercalate
      ([("last", last), ("n", toString limit)].map fun pair =>
        (pair.1 ++ String.singleton '=' ++ pair.2).toList)) := by
    apply String.toList_inj.mp
    simp [nextQuery]
  have cursor : "last".toList.all isPlain = true := by decide
  have size : "n".toList.all isPlain = true := by decide
  have plain : ∀ pair ∈ [("last", last), ("n", toString limit)],
      pair.1.toList.all isPlain = true ∧ pair.2.toList.all isPlain = true := by
    intro pair member
    rcases List.mem_cons.mp member with rfl | second
    · exact ⟨cursor, plainLast⟩
    · cases List.mem_singleton.mp second
      exact ⟨size, isPlain_toString limit⟩
  rw [joined, parse_intercalate dec (by simp) plain, ExtTreeMap.ofList_cons, ExtTreeMap.insertMany_list_singleton]
  simp only [ExtTreeMap.getElem?_insert, LawfulEqCmp.compare_eq_iff_eq]
  simp

end Texts

end FerroProtocols.Oci
