import FerroProtocols.Cargo.Runs
import FerroProtocols.Lib.Texts

/-! Requests for the index of a crate: where it is looked for, and which crate is found there. -/

namespace FerroProtocols.Cargo

open BlobStore Std Texts

/-- The path of the index of a crate; names have characters of one byte. -/
def indexPath (name : String) : String :=
  let lower := lowerName name
  match lower.utf8ByteSize with
  | 0 => ""
  | 1 => "1" ++ "/" ++ lower
  | 2 => "2" ++ "/" ++ lower
  | 3 => "3" ++ "/" ++ String.ofList (lower.toList.take 1) ++ "/" ++ lower
  | _ => String.ofList (lower.toList.take 2) ++ "/" ++ String.ofList ((lower.toList.drop 2).take 2) ++ "/" ++ lower

/-- The last segment of a path. -/
def extractNameFromIndexPath (path : String) : Option String :=
  let name := match rsplitOnce '/' path with
    | some (_, last) => last
    | none => path
  if name.isEmpty then none else some name

/-- A text without blanks at its ends. -/
def trimmed (text : String) : String := String.ofList (Oci.ContentRange.trim text.toList)

/-- A list of entity tags has one, or has all of them. -/
def etagMatches (ifNoneMatch etag : String) : Bool :=
  let raw := trimmed ifNoneMatch
  if raw.isEmpty then false
  else if raw = "*" then true
  else (split ',' raw).any fun candidate =>
    decide (((stripPrefix "W/" (trimmed candidate)).getD (trimmed candidate)) = etag)

/-- How a request for an index is answered. -/
inductive IndexAnswer where
  -- Status 200.
  | lines (headers : List (String × String)) (body : String)
  -- Status 304.
  | notModified (headers : List (String × String))
  | refused (error : CargoError)
  deriving DecidableEq

/-- The functions that the index is written with. -/
structure IndexServer where
  sha : Sha256
  toLine : IndexEntry → Option String

namespace IndexServer

variable (server : IndexServer)

/-- The lines of some entries; an entry that cannot be written is left out. -/
def renderLines (entries : List IndexEntry) : String :=
  String.join (entries.filterMap fun entry => (server.toLine entry).map fun line => line ++ "\n")

/-- The entity tag of an index. -/
def sparseIndexEtag (body : String) : String :=
  "\"" ++ String.ofList (Hex.encode (server.sha.hash (textBytes body))) ++ "\""

/-- The headers of an answer with an index. -/
def indexHeaders (body : String) : List (String × String) :=
  [("content-type", "text/plain; charset=utf-8"), ("etag", server.sparseIndexEtag body)]

/-- The answer with the index of some entries, unless the client has it. -/
def indexOf (entries : List IndexEntry) (ifNoneMatch : Option String) : IndexAnswer :=
  let body := server.renderLines entries
  if etagMatches (ifNoneMatch.getD "") (server.sparseIndexEtag body) then .notModified (server.indexHeaders body)
  else .lines (server.indexHeaders body) body

/-- Look a crate up. -/
def serveIndex (crates : CrateMap) (name : String) (ifNoneMatch : Option String) : IndexAnswer :=
  match crates[canonicalName name]? with
  | none => .refused (.notFound name)
  | some record => server.indexOf record.entries ifNoneMatch

/-- Requests below `/index/`. -/
def handleSparseIndex (crates : CrateMap) (path : String) (ifNoneMatch : Option String) : IndexAnswer :=
  match extractNameFromIndexPath path with
  | none => .refused (.notFound path)
  | some name => server.serveIndex crates name ifNoneMatch

/-- The answer to a request by its path, if it is one for an index. -/
def request (crates : CrateMap) (path : String) (ifNoneMatch : Option String) : Option IndexAnswer :=
  match split '/' path with
  | [] => none
  | first :: rest =>
    -- The first segments that are fixed come before those that are not.
    if first = "index" ∧ rest ≠ [] then some (server.handleSparseIndex crates ("/".intercalate rest) ifNoneMatch)
    else if first = "index.git" ∧ rest ≠ [] then none
    else
      match rest with
      | [name] | [_, name] => some (server.serveIndex crates name ifNoneMatch)
      | _ => none

end IndexServer

/-- A crate was published under a name, and has a record. -/
def CrateMap.Published (crates : CrateMap) (name : String) (record : CrateRecord) : Prop :=
  ∃ key : String, crates[key]? = some record ∧ record.entries ≠ [] ∧ ∀ entry ∈ record.entries, entry.name = name

section Lookup

variable {name : String}

private theorem slash_notMem (valid : isValidName name = true) : '/' ∉ name.toList := by
  unfold isValidName at valid
  split at valid
  · cases valid
  · cases spelled : name.toList with
    | nil => exact List.not_mem_nil
    | cons first rest =>
      simp only [spelled, Bool.and_eq_true, List.all_eq_true] at valid
      rw [List.mem_cons, not_or]
      constructor
      · rintro rfl
        exact absurd valid.1 (by decide)
      · exact fun member => absurd (valid.2 '/' member) (by decide)

private theorem exists_indexPath (valid : isValidName (lowerName name) = true) : ∃ before front rest,
    indexPath name = before ++ "/" ++ lowerName name ∧ split '/' before = front :: rest ∧ rest.length ≤ 1 ∧
      front ≠ "index" ∧ front ≠ "index.git" := by
  have piece {letters : List Char} (sub : letters.Sublist (lowerName name).toList) :
      split '/' (String.ofList letters) = [String.ofList letters] := by
    refine split_of_notMem ?_
    rw [String.toList_ofList]
    exact fun member => slash_notMem valid (sub.subset member)
  have pair {left right : String} (first : split '/' left = [left]) (second : split '/' right = [right]) :
      split '/' (left ++ "/" ++ right) = [left, right] := by
    refine (split_append left right).trans ?_
    rw [first, second]
    rfl
  have short {long : String} (length : 2 < long.toList.length) : String.ofList
      ((lowerName name).toList.take 2) ≠ long := by
    rintro rfl
    rw [String.toList_ofList, List.length_take] at length
    omega
  unfold indexPath
  dsimp only
  split
  · -- The empty name is not valid.
    rename_i empty
    rw [isValidName, if_pos (.inl empty)] at valid
    cases valid
  · exact ⟨"1", "1", [], rfl, by decide +kernel, by simp, by decide⟩
  · exact ⟨"2", "2", [], rfl, by decide +kernel, by simp, by decide⟩
  · exact ⟨_, "3", [_], rfl, pair (by decide +kernel) (piece (List.take_sublist _ _)), by simp, by decide⟩
  · exact ⟨_, _, [_], rfl, pair (piece (List.take_sublist _ _)) (piece ((List.take_sublist _ _).trans
      (List.drop_sublist _ _))), by simp, short (by decide), short (by decide)⟩

variable {server : IndexServer} {crates : CrateMap} {ifNoneMatch : Option String}

private theorem request_indexPath (valid : isValidName name = true) {path : String}
    (asked : path = indexPath name ∨ path = "index/" ++ indexPath name) :
    server.request crates path ifNoneMatch = some (server.serveIndex crates (lowerName name) ifNoneMatch) := by
  have lower : isValidName (lowerName name) = true :=
    (isValidName_of_canonicalName_eq (canonicalName_lowerName name)).trans valid
  obtain ⟨before, front, rest, joined, parts, few, other⟩ := exists_indexPath lower
  have segments : split '/' (indexPath name) = front :: (rest ++ [lowerName name]) := by
    rw [joined, ← List.cons_append, ← parts, ← split_of_notMem (slash_notMem lower)]
    exact split_append _ _
  rcases asked with rfl | rfl
  · -- One or two segments come before the name.
    rw [IndexServer.request, segments]
    simp only [other.1, other.2, false_and, if_false]
    cases rest with
    | nil => rfl
    | cons middle rest =>
      cases rest with
      | nil => rfl
      | cons next rest => simp at few
  · have cut : rsplitOnce '/' (indexPath name) = some (before, lowerName name) :=
      rsplitOnce_eq_some_iff.mpr ⟨by rw [joined]; simp, slash_notMem lower⟩
    have some : ¬ (lowerName name).isEmpty = true := by
      intro empty
      rw [String.isEmpty_iff.mp empty] at lower
      cases lower
    have extracted : extractNameFromIndexPath (indexPath name) = .some (lowerName name) := by
      rw [extractNameFromIndexPath, cut]
      exact if_neg some
    have whole : split '/' ("index/" ++ indexPath name) = ["index"] ++ split '/' (indexPath name) :=
      split_append "index" (indexPath name)
    have back : "/".intercalate (split '/' (indexPath name)) = indexPath name := intercalate_split _
    rw [IndexServer.request, whole]
    simp [split_ne_nil, back, IndexServer.handleSparseIndex, extracted]

/-- The lines of an index are those of its entries, in their order. -/
theorem split_renderLines (single : ∀ entry line, server.toLine entry = some line → '\n' ∉ line.toList)
    (entries : List IndexEntry) :
    split '\n' (server.renderLines entries) = entries.filterMap server.toLine ++ [""] := by
  induction entries with
  | nil => exact @split_of_notMem _ "" List.not_mem_nil
  | cons entry rest ih =>
    unfold IndexServer.renderLines at ih ⊢
    cases written : server.toLine entry with
    | none => simpa [written] using ih
    | some line =>
      have first : split '\n' line = [line] := split_of_notMem (single entry line written)
      rw [List.filterMap_cons_some (by rw [written]; rfl), List.filterMap_cons_some written, String.join_cons,
        List.cons_append, ← ih]
      exact (split_append line _).trans (by rw [first]; rfl)

end Lookup

/-- The crates that are found are the published ones: an index request for a valid name is answered with the lines of
the crate whose name is the same up to case and hyphens, unless the client has them, and with an error if there is
none. -/
theorem index_lookup_exact {ω ι : Type} [DecidableEq ι] (server : CargoServer) (reqs : ι → CargoRequest)
    (blobs : InMemoryBlobStore) (disk : ω) (events : List (ι × CargoEvent ω)) (index : IndexServer)
    (single : ∀ entry line, index.toLine entry = some line → '\n' ∉ line.toList)
    (ifNoneMatch : Option String) {name : String} (valid : isValidName name = true) :
    let crates := (Interleaving.run (server.program reqs) (CargoSystem.opening blobs disk) events).shared.crates
    ∀ path, path = indexPath name ∨ path = "index/" ++ indexPath name →
      (∀ published record, crates.Published published record → SameName published name →
        ∃ body, Texts.split '\n' body = record.entries.filterMap index.toLine ++ [""] ∧
          index.request crates path ifNoneMatch =
            some (if etagMatches (ifNoneMatch.getD "") (index.sparseIndexEtag body) then
              .notModified (index.indexHeaders body) else .lines (index.indexHeaders body) body)) ∧
      ((∀ published record, crates.Published published record → ¬ SameName published name) →
        index.request crates path ifNoneMatch = some (.refused (.notFound (lowerName name)))) := by
  intro crates path asked
  have consistent : crates.Consistent server.digits := (CargoServer.sound_run blobs disk events).consistent
  rw [request_indexPath valid asked, IndexServer.serveIndex, canonicalName_lowerName]
  constructor
  · rintro published record ⟨key, stored, some, named⟩ same
    obtain ⟨name', _, folded, each⟩ := (consistent key record stored).name
    obtain ⟨entry, rest, shape⟩ := List.exists_cons_of_ne_nil some
    have first : entry ∈ record.entries := by rw [shape]; exact List.mem_cons_self
    have key : key = canonicalName name := by
      rw [← folded, ← each entry first, named entry first, canonicalName_eq_iff]
      exact same
    rw [← key, stored]
    exact ⟨_, split_renderLines single _, rfl⟩
  · intro none
    cases stored : crates[canonicalName name]? with
    | none => rfl
    | some record =>
      have kept := consistent _ record stored
      obtain ⟨published, _, folded, each⟩ := kept.name
      exact absurd (canonicalName_eq_iff.mp folded) (none published record ⟨_, stored, kept.nonempty, each⟩)

/-- The line of the crate that is published below. -/
def demoLine : String :=
  "\x7b\"name\":\"Foo-Bar\",\"vers\":\"1.0.0\",\"deps\":[],\"cksum\":\"" ++
    (Digest.sha256Of shaTable [7]).hex ++ "\",\"features\":\x7b\x7d,\"yanked\":true,\"v\":2\x7d"

open CargoServer in
/-- The index of a crate is found by another spelling of its name. -/
theorem index_lookup_exact_spelling : let index : IndexServer :=
      ⟨shaTable, fun entry => if entry.vers = "1.0.0" ∧ entry.yanked then some demoLine else none⟩
    let crates :=
      (Interleaving.run (demo.program demoRequests) (CargoSystem.opening .new ()) demoEvents).shared.crates
    ∃ record body, crates.Published "Foo-Bar" record ∧ SameName "Foo-Bar" "FOO_bar" ∧
      split '\n' body = [demoLine, ""] ∧
      index.request crates (indexPath "FOO_bar") none = some (.lines (index.indexHeaders body) body) := by
  intro index crates
  obtain ⟨found, sameNames, line⟩ : crates["foo_bar"]?.map (fun record => record.entries.map fun entry =>
        (entry.name, index.toLine entry)) = some [("Foo-Bar", some demoLine)] ∧
      canonicalName "Foo-Bar" = canonicalName "FOO_bar" ∧ '\n' ∉ demoLine.toList := by
    decide +kernel
  obtain ⟨record, stored, names⟩ := Option.map_eq_some_iff.mp found
  obtain ⟨entry, only, named⟩ := List.map_eq_singleton_iff.mp names
  obtain ⟨named, written⟩ := Prod.mk.inj named
  have published : crates.Published "Foo-Bar" record := by
    refine ⟨_, stored, by rw [only]; exact List.cons_ne_nil _ _, fun other member => ?_⟩
    rw [only, List.mem_singleton] at member
    rw [member, named]
  have single : ∀ entry text, index.toLine entry = some text → '\n' ∉ text.toList := by
    intro other text wrote
    cases (Option.ite_none_right_eq_some.mp wrote).2
    exact line
  have same : SameName "Foo-Bar" "FOO_bar" := canonicalName_eq_iff.mp sameNames
  obtain ⟨body, lines, answer⟩ := (index_lookup_exact demo demoRequests .new () demoEvents index single none
    (by decide +kernel) _ (.inl rfl)).1 _ record published same
  refine ⟨record, body, published, same, ?_, answer⟩
  rw [lines, only]
  simp [written]

end FerroProtocols.Cargo
