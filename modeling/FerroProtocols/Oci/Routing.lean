import FerroProtocols.Lib.LastOccurrence
import FerroProtocols.Oci.Names

/-! Which handler a path under `/v2/` is given to, and for which repository. -/

namespace FerroProtocols.Oci

open BlobStore LastOccurrence

/-- What the suffix of an endpoint begins with, in the order in which it is searched for. -/
def keywords : List (List Char) :=
  ["blobs/".toList, "manifests/".toList, "tags/list".toList, "referrers/".toList]

/-- How splitting a path ends. -/
inductive RestSplit where
  | found (name suffix : String)
  | notFound
  -- A range of bytes would begin inside of a character.
  | panicked
  deriving DecidableEq

/-- Search the last occurrence of one keyword after the other in a path. -/
def splitAtKeyword (rest : List Char) : List (List Char) → RestSplit
  | [] => .notFound
  | keyword :: others =>
    match rsplit keyword rest with
    | none => splitAtKeyword rest others
    | some (before, suffix) =>
      match before.getLast? with
      | none => .notFound
      | some sep =>
        -- The byte in front of the keyword is taken by itself.
        if sep.utf8Size ≠ 1 then .panicked
        else if sep ≠ '/' then splitAtKeyword rest others
        else .found (String.ofList before.dropLast) (String.ofList suffix)

/-- The repository name and the endpoint suffix of a path. -/
def splitRest (rest : String) : RestSplit := splitAtKeyword rest.toList keywords

/-- The methods that are dispatched. -/
inductive Method where
  | get
  | head
  | delete
  | post
  | patch
  | put
  deriving DecidableEq

/-- The handler a request is given to, with the texts it is given from the path. -/
inductive Handler where
  | listTags (name : String)
  | getReferrers (name digest : String)
  | getManifest (name ref : String)
  | headManifest (name ref : String)
  | putManifest (name ref : String)
  | deleteManifest (name ref : String)
  | initUpload (name : String)
  | patchUpload (name uuid : String)
  | finishUpload (name uuid : String)
  | getUploadStatus (name uuid : String)
  | cancelUpload (name uuid : String)
  | getBlob (name digest : String)
  | headBlob (name digest : String)
  | deleteBlob (name digest : String)
  | refuse (error : OciError)
  | panicked
  deriving DecidableEq

/-- What follows in a text after another one. -/
def stripText (start text : String) : Option String :=
  if start.toList.isPrefixOf text.toList then
    some (String.ofList (text.toList.drop start.toList.length))
  else none

/-- A text without the slashes at its end. -/
def trimEndSlashes (text : String) : String :=
  String.ofList (text.toList.reverse.dropWhile fun ch => decide (ch = '/')).reverse

/-- The answer for a method an endpoint does not have. -/
def unsupportedMethod : Handler := .refuse ⟨.unsupported, "unsupported method", some 405⟩

/-- The handlers of one manifest. -/
def manifestHandler (name ref : String) : Method → Handler
  | .get => .getManifest name ref
  | .head => .headManifest name ref
  | .put => .putManifest name ref
  | .delete => .deleteManifest name ref
  | _ => unsupportedMethod

/-- The handlers of upload sessions. -/
def uploadHandler (name uuid : String) : Method → Handler
  -- A new session has no identifier yet; what follows in the path is not looked at.
  | .post => .initUpload name
  | .patch => .patchUpload name uuid
  | .put => .finishUpload name uuid
  | .get => .getUploadStatus name uuid
  | .delete => .cancelUpload name uuid
  | _ => unsupportedMethod

/-- The handlers of one blob. -/
def blobHandler (name digest : String) : Method → Handler
  | .get => .getBlob name digest
  | .head => .headBlob name digest
  | .delete => .deleteBlob name digest
  | _ => unsupportedMethod

/-- The handler for an endpoint suffix. -/
def dispatchInner (name suffix : String) (method : Method) : Handler :=
  if suffix = "tags/list" then
    if method = .get then .listTags name else unsupportedMethod
  else
    match stripText "referrers/" suffix with
    | some rest => if method = .get then .getReferrers name rest else unsupportedMethod
    | none =>
      match stripText "manifests/" suffix with
      | some rest => manifestHandler name rest method
      | none =>
        match stripText "blobs/uploads/" suffix with
        | some rest => uploadHandler name (trimEndSlashes rest) method
        | none =>
          match stripText "blobs/" suffix with
          | some rest => blobHandler name rest method
          | none => .refuse ⟨.nameUnknown, "cannot route `" ++ name ++ "/" ++ suffix ++ "`", none⟩

/-- The handler for a path. -/
def dispatch (method : Method) (rest : String) : Handler :=
  match splitRest rest with
  | .found name suffix => dispatchInner name suffix method
  | .notFound => .refuse ⟨.nameUnknown, "cannot route `" ++ rest ++ "`", none⟩
  | .panicked => .panicked

/-- An endpoint of a repository. -/
inductive Endpoint where
  | blob (digest : Digest)
  -- The identifier is empty for a session that is to be created.
  | upload (uuid : String)
  | manifest (ref : Reference)
  | tags
  | referrers (digest : Digest)

namespace Endpoint

/-- A reference as a path spells it. -/
def referenceText : Reference → String
  | .tag tag => tag
  | .digest digest => digest.toString

/-- An endpoint that a path can name: its tag is valid, and its session identifier is one segment. -/
def WellFormed : Endpoint → Prop
  | .upload uuid => '/' ∉ uuid.toList
  | .manifest (.tag tag) => isValidTag tag = true
  | _ => True

/-- Whether a path can name an endpoint is seen from its texts. -/
instance instDecidableWellFormed : DecidablePred WellFormed
  | .upload uuid => inferInstanceAs (Decidable ('/' ∉ uuid.toList))
  | .manifest (.tag tag) => inferInstanceAs (Decidable (isValidTag tag = true))
  | .manifest (.digest _) | .blob _ | .tags | .referrers _ => inferInstanceAs (Decidable True)

/-- The path of an endpoint below its repository. -/
def suffix : Endpoint → String
  | .blob digest => "blobs/" ++ digest.toString
  | .upload uuid => "blobs/uploads/" ++ uuid
  | .manifest ref => "manifests/" ++ referenceText ref
  | .tags => "tags/list"
  | .referrers digest => "referrers/" ++ digest.toString

/-- The handler that serves an endpoint. -/
def handler (name : String) : Endpoint → Method → Handler
  | .blob digest, method => blobHandler name digest.toString method
  | .upload uuid, method => uploadHandler name uuid method
  | .manifest ref, method => manifestHandler name (referenceText ref) method
  | .tags, method => if method = .get then .listTags name else unsupportedMethod
  | .referrers digest, method =>
    if method = .get then .getReferrers name digest.toString else unsupportedMethod

/-- The keywords that are searched for before the one of an endpoint. -/
def earlier : Endpoint → List (List Char)
  | .blob _ | .upload _ => []
  | .manifest _ => ["blobs/".toList]
  | .tags => ["blobs/".toList, "manifests/".toList]
  | .referrers _ => ["blobs/".toList, "manifests/".toList, "tags/list".toList]

end Endpoint

/-- A keyword stands at the start of a component of a name, and nowhere further right in it. -/
def Shadows (keyword : List Char) (name : String) : Prop :=
  ∃ before after, name.toList ++ ['/'] = before ++ after ∧ keyword <+: after ∧
    (before = [] ∨ before.getLast? = some '/') ∧
    ∀ left right, name.toList ++ ['/'] = left ++ right → keyword <+: right →
      left.length ≤ before.length

private theorem shadows_iff (keyword : List Char) (name : String) :
    Shadows keyword name ↔ ∃ parts ∈ rsplit keyword (name.toList ++ ['/']),
      parts.1 = [] ∨ parts.1.getLast? = some '/' := by
  constructor
  · rintro ⟨before, after, joined, stands, begins, last⟩
    refine ⟨(before, after), ?_, begins⟩
    rw [joined] at last ⊢
    exact rsplit_eq_some stands last
  · rintro ⟨⟨before, after⟩, cut, begins⟩
    obtain ⟨joined, stands⟩ := append_of_rsplit cut
    exact ⟨before, after, joined, stands, begins, fun left right => length_le_of_rsplit cut⟩

/-- Shadowing is checked by one search. -/
instance instDecidableShadows (keyword : List Char) (name : String) :
    Decidable (Shadows keyword name) :=
  decidable_of_iff _ (shadows_iff keyword name).symm

section Search

variable {name : String} {suffix : List Char}

private theorem splitAtKeyword_cons (plain : name.toList.all isPlain = true) {keyword : List Char}
    (occupied : keyword ≠ []) (others : List (List Char)) (apart : rsplit keyword (name.toList ++ ['/'] ++ suffix) =
      (rsplit keyword (name.toList ++ ['/'])).map fun parts => (parts.1, parts.2 ++ suffix)) :
    splitAtKeyword (name.toList ++ ['/'] ++ suffix) (keyword :: others) = .found name (String.ofList suffix) ↔
      ¬ Shadows keyword name ∧ splitAtKeyword (name.toList ++ ['/'] ++ suffix) others =
        .found name (String.ofList suffix) := by
  rw [splitAtKeyword, apart, shadows_iff]
  cases cut : rsplit keyword (name.toList ++ ['/']) with
  | none => simp
  | some parts =>
    obtain ⟨before, after⟩ := parts
    obtain ⟨joined, stands⟩ := append_of_rsplit cut
    dsimp only [Option.map]
    cases ends : before.getLast? with
    | none => simp [List.getLast?_eq_none_iff.mp ends]
    | some sep =>
      have inside : sep ∈ name.toList ++ ['/'] := by
        rw [joined]
        exact List.mem_append_left _ (List.mem_of_getLast? ends)
      have narrow : sep.utf8Size = 1 := by
        rcases List.mem_append.mp inside with early | late
        · exact utf8Size_of_isPlain (List.all_eq_true.mp plain _ early)
        · rw [List.mem_singleton.mp late]
          rfl
      have filled : before ≠ [] := by
        rintro rfl
        cases ends
      dsimp only
      by_cases slash : sep = '/'
      · rw [if_neg (not_not.mpr narrow), if_neg (not_not.mpr slash)]
        constructor
        · -- What is cut off here is longer than the suffix, so that it is not the right one.
          intro same
          have suffixes := String.ofList_inj.mp (RestSplit.found.inj same).2
          have none : after = [] := List.append_left_eq_self.mp suffixes
          rw [none] at stands
          exact absurd (List.prefix_nil.mp stands) occupied
        · intro ⟨unshadowed, _⟩
          exact absurd ⟨_, rfl, .inr (ends.trans (congrArg some slash))⟩ unshadowed
      · rw [if_neg (not_not.mpr narrow), if_pos slash]
        simp [ends, slash, filled]

private theorem splitAtKeyword_own {keyword : List Char} (others : List (List Char))
    (own : rsplit keyword suffix = some ([], suffix)) :
    splitAtKeyword (name.toList ++ ['/'] ++ suffix) (keyword :: others) = .found name (String.ofList suffix) := by
  have narrow : '/'.utf8Size = 1 := rfl
  rw [splitAtKeyword, rsplit_append_right own (name.toList ++ ['/'])]
  simp [narrow]

end Search

namespace Endpoint

/-- The keyword of an endpoint. -/
def keyword : Endpoint → List Char
  | .blob _ | .upload _ => "blobs/".toList
  | .manifest _ => "manifests/".toList
  | .tags => "tags/list".toList
  | .referrers _ => "referrers/".toList

private theorem keywords_eq (endpoint : Endpoint) :
    ∃ later, keywords = endpoint.earlier ++ endpoint.keyword :: later := by
  cases endpoint <;> exact ⟨_, rfl⟩

private theorem slash_notMem_digest (digest : Digest) : '/' ∉ digest.toString.toList := by
  have colon : '/' ∉ digest.algo.prefixText.toList ++ ":".toList := by cases digest.algo <;> decide
  simp only [Digest.toString, String.toList_append, List.mem_append] at colon ⊢
  rintro (before | after)
  · exact colon before
  · exact absurd (digest.lower '/' after) (by decide)

private theorem slash_notMem_tag {tag : String} (valid : isValidTag tag = true) : '/' ∉ tag.toList := by
  unfold isValidTag at valid
  cases spelled : tag.toList with
  | nil => simp
  | cons first rest =>
    simp only [spelled, Bool.and_eq_true, Bool.or_eq_true, decide_eq_true_eq] at valid
    obtain ⟨⟨_, begins⟩, others⟩ := valid
    intro member
    rcases List.mem_cons.mp member with rfl | later
    · exact absurd begins (by decide)
    · exact absurd (List.all_eq_true.mp others '/' later) (by decide)

/-- What follows the keyword of an endpoint in its suffix. -/
def rest : Endpoint → List Char
  | .blob digest | .referrers digest => digest.toString.toList
  | .upload uuid => "uploads/".toList ++ uuid.toList
  | .manifest ref => (referenceText ref).toList
  | .tags => []

private theorem toList_suffix (endpoint : Endpoint) :
    endpoint.suffix.toList = endpoint.keyword ++ endpoint.rest := by
  cases endpoint with
  | blob | referrers | manifest | upload => exact String.toList_append
  | tags => rfl

variable {endpoint : Endpoint} {searched : List Char}

private theorem rsplit_rest (formed : endpoint.WellFormed)
    (known : searched ∈ keywords) : rsplit searched endpoint.rest = none := by
  have slash : '/' ∈ searched := by
    revert searched
    decide
  cases endpoint with
  | blob digest | referrers digest => exact rsplit_eq_none_of_not_mem slash (slash_notMem_digest digest)
  | upload uuid =>
    refine rsplit_append_eq_none (rsplit_eq_none_of_not_mem slash formed) ?_
    revert searched
    decide
  | manifest ref =>
    cases ref with
    | tag tag => exact rsplit_eq_none_of_not_mem slash (slash_notMem_tag formed)
    | digest digest => exact rsplit_eq_none_of_not_mem slash (slash_notMem_digest digest)
  | tags => exact rsplit_eq_none_of_not_mem slash (List.not_mem_nil)

private theorem rsplit_own (formed : endpoint.WellFormed) :
    rsplit endpoint.keyword endpoint.suffix.toList = some ([], endpoint.suffix.toList) := by
  rw [toList_suffix]
  cases endpoint with
  | blob digest | upload uuid =>
    exact @rsplit_self_append _ _ 'b' "lobs/".toList _ (rsplit_rest formed (by decide)) (by decide)
  | manifest ref =>
    exact @rsplit_self_append _ _ 'm' "anifests/".toList _ (rsplit_rest formed (by decide)) (by decide)
  | referrers digest =>
    exact @rsplit_self_append _ _ 'r' "eferrers/".toList _ (rsplit_rest formed (by decide)) (by decide)
  | tags => decide

private theorem of_pairwise_keywords {R : List Char → List Char → Prop} (pairwise : keywords.Pairwise R)
    (known : searched ∈ endpoint.earlier) :
    R searched endpoint.keyword := by
  obtain ⟨later, all⟩ := keywords_eq endpoint
  rw [all, List.pairwise_append] at pairwise
  exact pairwise.2.2 searched known endpoint.keyword (List.mem_cons_self ..)

private theorem keywords_separate : keywords.Pairwise fun searched own =>
    ∀ tail ∈ own.tails, tail ≠ [] → ¬ tail <+: searched ∧ ¬ searched <+: tail := by
  decide

private theorem keywords_slashed : keywords.Pairwise fun searched own =>
    ∀ start ∈ searched.inits, start.getLast? = some '/' → start = searched ∨
      start = "tags/".toList ∧ searched = "tags/list".toList ∧ own = "referrers/".toList := by
  decide

private theorem rsplit_suffix (formed : endpoint.WellFormed)
    (known : searched ∈ endpoint.earlier) : rsplit searched endpoint.suffix.toList = none := by
  obtain ⟨later, all⟩ := keywords_eq endpoint
  have listed : searched ∈ keywords := by
    rw [all]
    exact List.mem_append_left _ known
  rw [toList_suffix]
  exact rsplit_append_eq_none (rsplit_rest formed listed)
    (of_pairwise_keywords keywords_separate known)

private theorem rsplit_earlier (formed : endpoint.WellFormed) (known : searched ∈ endpoint.earlier) (name : String) :
    rsplit searched (name.toList ++ ['/'] ++ endpoint.suffix.toList) =
      (rsplit searched (name.toList ++ ['/'])).map fun parts => (parts.1, parts.2 ++ endpoint.suffix.toList) := by
  refine rsplit_append_left (rsplit_suffix formed known) ?_
  intro left occupied tail stands
  have ends : left.getLast? = some '/' := by
    obtain ⟨start, joined⟩ := tail
    obtain rfl | ⟨begin, final, rfl⟩ := List.eq_nil_or_concat' left
    · exact absurd rfl occupied
    · rw [← List.append_assoc] at joined
      have last := (List.append_inj' joined rfl).2
      rw [List.getLast?_concat, ← List.singleton_inj.mp last]
  rcases List.prefix_or_prefix_of_prefix stands (List.prefix_append left _) with fits | begins
  · exact fits
  · rcases of_pairwise_keywords keywords_slashed known left ((List.mem_inits _ _).mpr begins) ends with
      rfl | ⟨rfl, rfl, own⟩
    · exact List.prefix_refl _
    · -- The other half would have to begin the suffix, which begins otherwise.
      rw [toList_suffix, own] at stands
      change "tags/".toList ++ "list".toList <+: _ at stands
      rw [List.prefix_append_right_inj] at stands
      exact absurd stands (by simp)

end Endpoint

private theorem splitRest_endpoint_iff {name : String} (plain : name.toList.all isPlain = true)
    {endpoint : Endpoint} (formed : endpoint.WellFormed) :
    splitRest (name ++ "/" ++ endpoint.suffix) = .found name endpoint.suffix ↔
      ∀ keyword ∈ endpoint.earlier, ¬ Shadows keyword name := by
  obtain ⟨later, all⟩ := endpoint.keywords_eq
  have spelled : (name ++ "/" ++ endpoint.suffix).toList =
      name.toList ++ ['/'] ++ endpoint.suffix.toList := by
    rw [String.toList_append, String.toList_append]
    rfl
  rw [splitRest, spelled, all]
  -- The search goes through the earlier keywords one by one.
  have search : ∀ known : List (List Char), known ⊆ endpoint.earlier →
      (splitAtKeyword (name.toList ++ ['/'] ++ endpoint.suffix.toList)
          (known ++ endpoint.keyword :: later) = .found name endpoint.suffix ↔
        ∀ keyword ∈ known, ¬ Shadows keyword name) := by
    intro known
    induction known with
    | nil =>
      intro _
      have own := @splitAtKeyword_own name _ _ later (endpoint.rsplit_own formed)
      rw [String.ofList_toList] at own
      exact ⟨fun _ keyword member => absurd member List.not_mem_nil, fun _ => own⟩
    | cons keyword others ih =>
      intro inside
      obtain ⟨here, rest⟩ := List.cons_subset.mp inside
      have occupied : keyword ≠ [] := by
        rintro rfl
        cases endpoint <;> simp [Endpoint.earlier] at here
      have step := splitAtKeyword_cons plain occupied (others ++ endpoint.keyword :: later)
        (endpoint.rsplit_earlier formed here name)
      rw [String.ofList_toList, ih rest] at step
      rw [List.cons_append, step, List.forall_mem_cons]
  exact search endpoint.earlier (List.Subset.refl _)

section Dispatch

/-- A text in front is taken off. -/
theorem stripText_append (start rest : String) : stripText start (start ++ rest) = some rest := by
  have begins : start.toList.isPrefixOf (start.toList ++ rest.toList) = true :=
    List.isPrefixOf_iff_prefix.mpr (List.prefix_append _ _)
  rw [stripText, String.toList_append, if_pos begins, List.drop_left, String.ofList_toList]

variable {text : String}

private theorem stripText_eq_none {start : String} (rest : String)
    (differs : ¬ start.toList <+: text.toList ∧ ¬ text.toList <+: start.toList) :
    stripText start (text ++ rest) = none := by
  apply if_neg
  rw [String.toList_append, List.isPrefixOf_iff_prefix]
  intro begins
  rcases List.prefix_or_prefix_of_prefix begins (List.prefix_append text.toList rest.toList) with
    short | long
  · exact differs.1 short
  · exact differs.2 long

private theorem append_ne_of_unprefixed {start : String} (rest : String)
    (differs : ¬ start.toList <+: text.toList) : start ++ rest ≠ text := by
  rintro rfl
  rw [String.toList_append] at differs
  exact differs (List.prefix_append _ _)

private theorem trimEndSlashes_of_notMem (none : '/' ∉ text.toList) : trimEndSlashes text = text := by
  have kept : (text.toList.reverse.dropWhile fun ch => decide (ch = '/')) =
      text.toList.reverse := by
    rw [List.dropWhile_eq_self_iff]
    intro occupied slash
    refine none (List.mem_reverse.mp ?_)
    rw [← of_decide_eq_true slash]
    exact List.getElem_mem _
  rw [trimEndSlashes, kept, List.reverse_reverse, String.ofList_toList]

private theorem dispatchInner_suffix {endpoint : Endpoint} (formed : endpoint.WellFormed) (name : String)
    (method : Method) : dispatchInner name endpoint.suffix method = endpoint.handler name method := by
  unfold dispatchInner
  cases endpoint with
  | blob digest =>
    have spelled : "blobs/" ++ digest.toString =
        ("blobs/" ++ digest.algo.prefixText) ++ (":" ++ digest.hex) := by
      simp only [Digest.toString, String.append_assoc]
    have noUpload : stripText "blobs/uploads/" ("blobs/" ++ digest.toString) = none := by
      rw [spelled]
      exact stripText_eq_none _ (by cases digest.algo <;> decide)
    rw [Endpoint.suffix, if_neg (append_ne_of_unprefixed _ (by decide)),
      stripText_eq_none _ (by decide), stripText_eq_none _ (by decide), noUpload, stripText_append]
    rfl
  | upload uuid =>
    rw [Endpoint.suffix, if_neg (append_ne_of_unprefixed _ (by decide)),
      stripText_eq_none _ (by decide), stripText_eq_none _ (by decide), stripText_append]
    dsimp only
    rw [trimEndSlashes_of_notMem formed]
    rfl
  | manifest ref =>
    rw [Endpoint.suffix, if_neg (append_ne_of_unprefixed _ (by decide)),
      stripText_eq_none _ (by decide), stripText_append]
    rfl
  | tags => rfl
  | referrers digest =>
    rw [Endpoint.suffix, if_neg (append_ne_of_unprefixed _ (by decide)), stripText_append]
    rfl

end Dispatch

/-- A valid repository name is recovered from the path of an endpoint, and the endpoint's handler serves it, exactly
when no keyword searched for before the endpoint's own has its last occurrence at the start of a component. -/
theorem splitRest_recovers_name {name : String} (valid : validateName name = .ok ())
    {endpoint : Endpoint} (formed : endpoint.WellFormed) :
    (splitRest (name ++ "/" ++ endpoint.suffix) = .found name endpoint.suffix ↔
      ∀ keyword ∈ endpoint.earlier, ¬ Shadows keyword name) ∧
    ((∀ keyword ∈ endpoint.earlier, ¬ Shadows keyword name) → ∀ method,
      dispatch method (name ++ "/" ++ endpoint.suffix) = endpoint.handler name method) := by
  have exact := splitRest_endpoint_iff (isPlain_of_validateName valid) formed
  refine ⟨exact, fun unshadowed method => ?_⟩
  rw [dispatch, exact.mpr unshadowed]
  exact dispatchInner_suffix formed name method

/-- The tags of a name whose components only end in keywords are listed for it. -/
theorem splitRest_recovers_name_tags :
    (∀ keyword ∈ Endpoint.earlier .tags, ¬ Shadows keyword "my-blobs/manifests.v2") ∧
      splitRest "my-blobs/manifests.v2/tags/list" = .found "my-blobs/manifests.v2" "tags/list" ∧
      dispatch .get "my-blobs/manifests.v2/tags/list" = .listTags "my-blobs/manifests.v2" := by
  have unshadowed : ∀ keyword ∈ Endpoint.earlier .tags,
      ¬ Shadows keyword "my-blobs/manifests.v2" := by
    decide +kernel
  have valid : validateName "my-blobs/manifests.v2" = .ok () := by decide +kernel
  have recovered := @splitRest_recovers_name _ valid .tags trivial
  exact ⟨unshadowed, recovered.1.mpr unshadowed, recovered.2 unshadowed .get⟩

/-- A request to delete a manifest of one repository is served as a request to delete a blob of another, and the tags
of a repository cannot be listed, when a component is a keyword. -/
theorem splitRest_shadowed : validateName "a/blobs" = .ok () ∧ Endpoint.WellFormed (.manifest (.tag "latest")) ∧
      splitRest ("a/blobs" ++ "/" ++ Endpoint.suffix (.manifest (.tag "latest"))) =
        .found "a" "blobs/manifests/latest" ∧
      dispatch .delete ("a/blobs" ++ "/" ++ Endpoint.suffix (.manifest (.tag "latest"))) =
        .deleteBlob "a" "manifests/latest" ∧ validateName "blobs/x" = .ok () ∧
      splitRest ("blobs/x" ++ "/" ++ Endpoint.suffix .tags) = .notFound := by
  refine ⟨?_, ?_, ?_, ?_, ?_, ?_⟩
  all_goals decide +kernel

section Panics

/-- The byte in front of the last occurrence of a keyword is not a character of its own. -/
def CutsCharacter (rest keyword : List Char) : Prop :=
  ∃ before sep suffix, rsplit keyword rest = some (before ++ [sep], suffix) ∧ sep.utf8Size ≠ 1

/-- The search goes on behind a keyword: it does not occur, or its last occurrence is behind one byte other than a
slash. -/
def PassesOver (rest keyword : List Char) : Prop :=
  ∀ before suffix, rsplit keyword rest = some (before, suffix) →
    ∃ front sep, before = front ++ [sep] ∧ sep.utf8Size = 1 ∧ sep ≠ '/'

private theorem splitAtKeyword_panicked_iff (rest : List Char) (searched : List (List Char)) :
    splitAtKeyword rest searched = .panicked ↔ ∃ earlier keyword later, searched = earlier ++ keyword :: later ∧
      (∀ other ∈ earlier, PassesOver rest other) ∧ CutsCharacter rest keyword := by
  induction searched with
  | nil => simp [splitAtKeyword]
  | cons keyword others ih =>
    -- Either the first keyword panics, or it is passed over and a later one does.
    have step : (∃ earlier other later, keyword :: others = earlier ++ other :: later ∧
        (∀ other ∈ earlier, PassesOver rest other) ∧ CutsCharacter rest other) ↔
        CutsCharacter rest keyword ∨ PassesOver rest keyword ∧ splitAtKeyword rest others = .panicked := by
      rw [ih]
      constructor
      · rintro ⟨earlier, other, later, shape, passed, cuts⟩
        cases earlier with
        | nil =>
          cases shape
          exact .inl cuts
        | cons first earlier =>
          cases shape
          obtain ⟨here, between⟩ := List.forall_mem_cons.mp passed
          exact .inr ⟨here, earlier, other, later, rfl, between, cuts⟩
      · rintro (cuts | ⟨here, earlier, other, later, rfl, between, cuts⟩)
        · exact ⟨[], keyword, others, rfl, by simp, cuts⟩
        · exact ⟨keyword :: earlier, other, later, rfl, List.forall_mem_cons.mpr ⟨here, between⟩, cuts⟩
    rw [step, splitAtKeyword, CutsCharacter, PassesOver]
    cases found : rsplit keyword rest with
    | none => simp
    | some cut =>
      obtain ⟨before, suffix⟩ := cut
      rcases List.eq_nil_or_concat' before with rfl | ⟨front, sep, rfl⟩
      · simp
      · by_cases single : sep.utf8Size = 1
        · by_cases slash : sep = '/' <;> simp [single, slash]
        · simp [single]

private theorem dispatchInner_ne_panicked (name suffix : String) (method : Method) :
    dispatchInner name suffix method ≠ .panicked := by
  have refused : unsupportedMethod ≠ .panicked := by decide
  unfold dispatchInner
  split
  · split
    · exact nofun
    · exact refused
  · split
    · split
      · exact nofun
      · exact refused
    · split
      · cases method <;> exact nofun
      · split
        · cases method <;> exact nofun
        · split
          · cases method <;> exact nofun
          · exact nofun

/-- Splitting a path, and so every request, panics exactly if the search for the keywords meets one whose last
occurrence is directly behind a character of more than one byte. -/
theorem routing_total_iff (rest : String) :
    (splitRest rest ≠ .panicked ∧ ∀ method, dispatch method rest ≠ .panicked) ↔
      ∀ earlier keyword later, keywords = earlier ++ keyword :: later →
        (∀ other ∈ earlier, PassesOver rest.toList other) → ¬ CutsCharacter rest.toList keyword := by
  have panics := splitAtKeyword_panicked_iff rest.toList keywords
  constructor
  · intro total earlier keyword later shape passed cuts
    exact total.1 (panics.mpr ⟨earlier, keyword, later, shape, passed, cuts⟩)
  · intro whole
    have returns : splitRest rest ≠ .panicked := by
      intro panicked
      obtain ⟨earlier, keyword, later, shape, passed, cuts⟩ := panics.mp panicked
      exact whole earlier keyword later shape passed cuts
    refine ⟨returns, fun method => ?_⟩
    unfold dispatch
    split
    · exact dispatchInner_ne_panicked _ _ method
    · exact nofun
    · contradiction

/-- A letter of two bytes in front of a keyword. -/
theorem routing_panics : splitRest "ublobs/x" = .notFound ∧ splitRest "üblobs/x" = .panicked ∧
    dispatch .get "üblobs/x" = .panicked := by
  decide +kernel

end Panics

end FerroProtocols.Oci
