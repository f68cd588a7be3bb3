import FerroProtocols.Lib.Paging
import FerroProtocols.Oci.Listing
import FerroProtocols.Oci.ManifestRuns
import FerroProtocols.Oci.Routing

/-! A client that follows the links of a list while tags and manifests come and go. -/

namespace FerroProtocols.Oci

open BlobStore Std SparseMap

/-- A list that can be asked for under a path, and the names it is a list of. -/
structure Listing where
  path : String
  names : InMemoryState → List String

/-- The tags of a repository. -/
def tagListing (name : String) : Listing where
  path := tagsPath name
  names := fun state => (state.repository name).tags.keys

/-- The catalog of repositories. -/
def catalogListing : Listing where
  path := catalogPath
  names := fun state => state.manifests.keys

/-- The answer to a request, if it is given to a handler that lists something: the catalog has a route of its
own, and the other paths are dispatched. -/
def routeList (dec : QueryDecoder) (target : Target) (state : InMemoryState) : Option ListAnswer :=
  if target.path = catalogPath then some (listCatalog state (dec.parse target.query))
  else
    (stripText "/v2/" target.path).bind fun rest =>
      match dispatch .get rest with
      | .listTags name => some (listTags state name (dec.parse target.query))
      | _ => none

/-- What a client takes from the answer: some names, and the address of a link. -/
def serve (dec : QueryDecoder) (target : Target) (state : InMemoryState) : List String × Option Target :=
  match routeList dec target state with
  | some (.listed names link) => (names, link.bind linkTarget)
  | _ => ([], none)

namespace Listing

variable (listing : Listing) (dec : QueryDecoder)

/-- Ask for the first page of a size, and follow the links while the state changes as given. -/
def walk (n : UInt64) (states : List InMemoryState) : Option (List String × List InMemoryState) :=
  Paging.follow (serve dec) ⟨listing.path, firstQuery n.toNat⟩ states

/-- What following the links of a list gives in states of some kind. -/
structure Complete (kind : InMemoryState → Prop) : Prop where
  -- Whatever happens between the pages, a walk that ends has found what was there all the time.
  walks : ∀ (n : UInt64) (states : List InMemoryState) (names : List String), 0 < n.toNat →
    (∀ state ∈ states, kind state) → listing.walk dec n states = some (names, []) →
    names.Pairwise (· < ·) ∧
      (∀ name ∈ names, ∃ state ∈ states, name ∈ listing.names state) ∧
      ∀ name, (∀ state ∈ states, name ∈ listing.names state) → name ∈ names
  -- A walk through a state that does not change ends with all names.
  ends : ∀ (n : UInt64) (state : InMemoryState), 0 < n.toNat → kind state →
    ∃ count, listing.walk dec n (List.replicate count state) =
      some (Paging.sorted (listing.names state), [])

/-- A list with plain names under a plain path, which is routed to a handler that serves pages of its names. -/
structure Paged (kind : InMemoryState → Prop) : Prop where
  path : listing.path.toList.all isPlain = true
  routed : ∀ query state, routeList dec ⟨listing.path, query⟩ state =
    some (listPage (InMemoryState.page (listing.names state)) listing.path (dec.parse query))
  nodup : ∀ state, (listing.names state).Nodup
  plain : ∀ state, kind state → ∀ name ∈ listing.names state, name.toList.all isPlain = true

/-- An address under the path of the list that asks for a page size, behind a cursor. -/
structure AsksFor (limit : Nat) (target : Target) (cursor : Option String) : Prop where
  path : target.path = listing.path
  size : (dec.parse target.query)["n"]? = some (toString limit)
  last : (dec.parse target.query)["last"]? = cursor

variable {listing dec} {kind : InMemoryState → Prop}

private theorem page_eq (names : List String) (cursor : Option String) (limit : Nat) :
    InMemoryState.page names cursor (some limit) = Paging.page names cursor limit := by
  cases cursor <;> rfl

private theorem serve_alike (paged : listing.Paged dec kind) {limit : Nat} (word : limit ≤ u64Max)
    {target : Target} {cursor : Option String} (asks : listing.AsksFor dec limit target cursor)
    {state : InMemoryState} (fits : kind state) : (serve dec target state).1 =
        (Paging.serve limit cursor (listing.names state)).1 ∧
      Option.Rel (listing.AsksFor dec limit) (serve dec target state).2
        (Paging.serve limit cursor (listing.names state)).2 := by
  have served : serve dec target state =
      (Paging.page (listing.names state) cursor limit, (nextLink listing.path (some limit)
          (Paging.page (listing.names state) cursor limit)).bind linkTarget) := by
    have routed := paged.routed target.query state
    rw [← asks.path] at routed
    simp only [serve, routed, listPage, asks.size, asks.last, asks.path, Option.bind_some, parseU64_toString word,
      page_eq]
  rw [served]
  refine ⟨rfl, ?_⟩
  simp only [Paging.serve, nextLink]
  cases final : (Paging.page (listing.names state) cursor limit).getLast? with
  | none =>
    simp only [Option.map_none, ite_self, Option.bind_none]
    exact .none
  | some last =>
    dsimp only
    split
    · -- The last name of the page is one of the list, so the link says what it should.
      have member : last ∈ Paging.page (listing.names state) cursor limit := List.mem_of_getLast? final
      have plain := paged.plain state fits last
        (Paging.mem_behind.mp (List.mem_of_mem_take member)).1
      rw [if_pos (isHeaderValue_link limit paged.path plain), Option.bind_some,
        linkTarget_link limit paged.path plain]
      obtain ⟨size, cursor⟩ := parse_nextQuery limit dec plain
      exact .some ⟨rfl, size, cursor⟩
    · exact .none

private theorem walk_alike (paged : listing.Paged dec kind) (n : UInt64)
    (states : List InMemoryState) (fits : ∀ state ∈ states, kind state) :
    (listing.walk dec n states).map (fun served => (served.1, served.2.map listing.names)) =
      Paging.follow (Paging.serve n.toNat) none (states.map listing.names) := by
  -- The page size of a request is a 64-bit word, so it is read back from the link as it was.
  have word : n.toNat ≤ u64Max := by
    have := n.toNat_lt
    simp only [u64Max]
    omega
  obtain ⟨size, cursor⟩ := parse_firstQuery n.toNat dec
  apply Paging.follow_congr (listing.AsksFor dec n.toNat) listing.names
  · intro target cursor asks state member
    exact serve_alike paged word asks (fits state member)
  · exact ⟨rfl, size, cursor⟩

/-- Following the links of a list with plain names finds all of them. -/
theorem Paged.complete (paged : listing.Paged dec kind) : listing.Complete dec kind where
  walks := by
    intro n states names positive fits ends
    have alike := walk_alike paged n states fits
    rw [ends, Option.map_some, List.map_nil] at alike
    have nodup : ∀ view ∈ states.map listing.names, view.Nodup := by
      intro view member
      obtain ⟨state, _, rfl⟩ := List.mem_map.mp member
      exact paged.nodup state
    obtain ⟨increasing, found, complete⟩ := Paging.follow_serve positive nodup alike.symm
    refine ⟨increasing, ?_, ?_⟩
    · intro name member
      obtain ⟨_, view, inside, there⟩ := found name member
      obtain ⟨state, listed, rfl⟩ := List.mem_map.mp inside
      exact ⟨state, listed, there⟩
    · intro name throughout
      apply complete name
      · intro last started
        cases started
      · intro view member
        obtain ⟨state, listed, rfl⟩ := List.mem_map.mp member
        exact throughout state listed
  ends := by
    intro n state positive fits
    obtain ⟨count, followed⟩ := Paging.follow_constant positive (paged.nodup state) none
    refine ⟨count, ?_⟩
    have alike := walk_alike paged n (List.replicate count state) fun other member =>
      (List.eq_of_mem_replicate member).symm ▸ fits
    rw [List.map_replicate, followed] at alike
    -- The walk used up all states, as it did with their names.
    obtain ⟨⟨names, unused⟩, walked, same⟩ := Option.map_eq_some_iff.mp alike
    simp only [Prod.mk.injEq, List.map_eq_nil_iff] at same
    rw [walked, same.1, same.2]
    rfl

end Listing

namespace InMemoryState

/-- The tags of a repository are such as requests may spell. -/
def TagsValid (name : String) (state : InMemoryState) : Prop :=
  ∀ tag ∈ (state.repository name).tags.keys, isValidTag tag = true

/-- The names of repositories are such as requests may spell. -/
def NamesValid (state : InMemoryState) : Prop :=
  ∀ name ∈ state.manifests.keys, validateName name = .ok ()

end InMemoryState

variable {dec : QueryDecoder}

private theorem paged_tags {name : String} (named : validateName name = .ok ())
    (given : dispatch .get (name ++ "/tags/list") = .listTags name) :
    (tagListing name).Paged dec (InMemoryState.TagsValid name) where
  path := by
    have first : "/v2/".toList.all isPlain = true := by decide
    have last : "/tags/list".toList.all isPlain = true := by decide
    simp only [tagListing, tagsPath, String.toList_append, List.all_append, first, last,
      isPlain_of_validateName named, Bool.and_self]
  routed := by
    intro query state
    have list : state.listTags name = InMemoryState.page (state.repository name).tags.keys := by
      funext last n
      exact state.listTags_eq name last n
    have spelled : tagsPath name = "/v2/" ++ (name ++ "/tags/list") := String.append_assoc
    -- The path is too long to be the one of the catalog.
    have other : tagsPath name ≠ catalogPath := by
      intro same
      have length := congrArg String.length same
      have fixed : "/v2/".length = 4 ∧ "/tags/list".length = 10 ∧ catalogPath.length = 12 := by decide
      rw [tagsPath, String.length_append, String.length_append] at length
      omega
    rw [spelled] at other
    simp only [routeList, tagListing, spelled, if_neg other, stripText_append, Option.bind_some, given,
      listTags, named,
      list]
  nodup := fun state => nodup_keys _
  plain := fun _ valid tag member => isPlain_of_isValidTag (valid tag member)

private theorem paged_catalog : catalogListing.Paged dec InMemoryState.NamesValid where
  path := by decide
  routed := fun _ _ => rfl
  nodup := fun state => nodup_keys _
  plain := fun _ valid name member => isPlain_of_validateName (valid name member)

namespace ManifestServer

/-- Every manifest is under its digest, and all tags and names are valid. -/
structure Spelled (sha : Sha256) (state : InMemoryState) : Prop where
  addressed : state.Addressed sha
  tags : ∀ name, state.TagsValid name
  names : state.NamesValid

private theorem lasting_spelled (sha : Sha256) : Registry.Lasting sha (Spelled sha) where
  blank := by
    refine ⟨(lasting_addressed sha).blank, ?_, ?_⟩
    · intro name tag member
      simp [InMemoryState.repository, valueAt] at member
    · intro name member
      simp at member
  durable := fun spelled => ⟨spelled.addressed, spelled.tags, spelled.names⟩
  undone := by
    intro state mutation spelled
    refine ⟨(lasting_addressed sha).undone mutation spelled.addressed, ?_, ?_⟩
    · intro name tag member
      rw [Mutation.repository_undone] at member
      exact spelled.tags name tag member
    · -- Undoing removes entries at most.
      have pruned (target other : String) (member : other ∈ (prune state.manifests target).keys) :
          validateName other = .ok () := by
        apply spelled.names
        rw [ExtTreeMap.mem_keys, ExtTreeMap.mem_iff_isSome_getElem?] at member ⊢
        rw [getElem?_prune] at member
        split at member
        · cases member
        · exact member
      intro name member
      cases mutation with
      | putManifestWithReferrer target | registerReferrer target => exact pruned target name member
      | deleteManifest => exact spelled.names name member
  addressed := fun spelled => spelled.addressed

variable {state after : InMemoryState} {mutation : Mutation} {req : ManifestRequest}

private theorem tagsValid_applied {sha : Sha256} (valid : ∀ name, state.TagsValid name)
    (issues : req.Issues sha mutation)
    (change : mutation.applied state = some after) (name : String) : after.TagsValid name := by
  intro tag member
  rw [Mutation.repository_applied change, ExtTreeMap.mem_keys] at member
  have before := fun there => valid name tag (ExtTreeMap.mem_keys.mpr there)
  cases issues with
  | @put target _ mediaType _ body ref referrer named tagged refers =>
    simp only [Mutation.effect] at member
    split at member
    · -- The only new tag is the one of the request.
      cases ref with
      | digest _ =>
        apply before
        cases referrer <;> exact member
      | tag own =>
        have inserted : tag ∈ (state.repository name).tags.insert own
            (Digest.sha256Of sha body).toString := by
          cases referrer <;> exact member
        rcases ExtTreeMap.mem_insert.mp inserted with same | old
        · rw [← LawfulEqCmp.eq_of_compare same]
          exact tagged own rfl
        · exact before old
    · exact before member
  | delete digest =>
    simp only [Mutation.effect] at member
    split at member
    · exact before (ExtTreeMap.mem_of_mem_filter member)
    · exact before member

private theorem namesValid_applied {sha : Sha256} (valid : state.NamesValid) (issues : req.Issues sha mutation)
    (change : mutation.applied state = some after) : after.NamesValid := by
  intro name member
  have before := fun there => valid name (ExtTreeMap.mem_keys.mpr there)
  rw [ExtTreeMap.mem_keys] at member
  cases issues with
  -- A put adds the repository of its request, whose name was checked.
  | @put target _ mediaType _ body ref referrer named tagged refers =>
    cases change
    have inserted : name ∈ update state.manifests target fun map =>
        map.insert (Digest.sha256Of sha body).toString (mediaType, body) := by
      cases ref <;> cases referrer <;> exact member
    rcases ExtTreeMap.mem_insert.mp inserted with same | old
    · rw [← LawfulEqCmp.eq_of_compare same]
      exact named
    · exact before old
  -- A delete adds no repository.
  | delete digest =>
    obtain ⟨manifest, _, rfl⟩ := Option.map_eq_some_iff.mp change
    exact before (ExtTreeMap.mem_modify.mp member)

private theorem spelled_run (server : ManifestServer) (json : Json) (pid : Nat) (steps : List ManifestStep) :
    Spelled server.sha (server.run json (Registry.fresh json server.sha pid) steps).state := by
  apply lasting_run (lasting_spelled server.sha)
  -- What is served was checked by the handlers.
  intro req contains faults _ state mutation after spelled chosen change
  have issues := server.issues_of_issued chosen
  exact ⟨Mutation.addressed_applied spelled.addressed (addressed_of_issues issues) change,
    tagsValid_applied spelled.tags issues change, namesValid_applied spelled.names issues change⟩

end ManifestServer

/-- Following the links of the tags of a repository, wherever the router gives its path to their handler, and of the
catalog is complete, in all states that the registry can reach. -/
theorem pagination_complete (dec : QueryDecoder) : (∀ name, validateName name = .ok () →
      dispatch .get (name ++ "/tags/list") = .listTags name →
      (tagListing name).Complete dec (InMemoryState.TagsValid name)) ∧
    catalogListing.Complete dec InMemoryState.NamesValid ∧
    ∀ (server : ManifestServer) (json : Json) (pid : Nat) (steps : List ManifestStep),
      let state := (server.run json (Registry.fresh json server.sha pid) steps).state
      (∀ name, state.TagsValid name) ∧ state.NamesValid := by
  refine ⟨?_, paged_catalog.complete, ?_⟩
  · intro name named given
    exact (paged_tags named given).complete
  · intro server json pid steps
    have spelled := server.spelled_run json pid steps
    exact ⟨spelled.tags, spelled.names⟩

/-- A registry with some tags in one repository. -/
def tagged (tags : List String) : InMemoryState where
  tags := {("a", .ofList (tags.map fun tag => (tag, emptySha.toString)))}

/-- The registry at three requests: behind the first page its cursor is removed, and another tag is added. -/
def moved : List InMemoryState :=
  [tagged ["1.0", "1.1", "2.0"], tagged ["1.0", "1.2", "2.0"], tagged ["1.0", "1.2", "2.0"]]

/-- The walk finds the tag that is there all the time, and all that it finds is in order. -/
theorem pagination_complete_moved : ∃ names, (tagListing "a").walk formDecoder 2 moved = some (names, []) ∧
    names = ["1.0", "1.1", "1.2", "2.0"] ∧ names.Pairwise (· < ·) ∧ "2.0" ∈ names := by
  have evaluated : ((tagListing "a").walk formDecoder 2 moved).map (fun served => (served.1, served.2.length)) =
        some (["1.0", "1.1", "1.2", "2.0"], 0) ∧
      validateName "a" = .ok () ∧ dispatch .get ("a" ++ "/tags/list") = .listTags "a" ∧
      (∀ state ∈ moved, (∀ tag ∈ (state.repository "a").tags.keys, isValidTag tag = true) ∧
        "2.0" ∈ (state.repository "a").tags.keys) := by
    decide +kernel
  obtain ⟨read, named, given, each⟩ := evaluated
  obtain ⟨⟨names, unused⟩, walked, same⟩ := Option.map_eq_some_iff.mp read
  obtain ⟨found, none⟩ := Prod.mk.inj same
  cases List.eq_nil_of_length_eq_zero none
  obtain ⟨increasing, _, kept⟩ := ((pagination_complete formDecoder).1 "a" named given).walks 2 moved names
    (by decide) (fun state member => (each state member).1) walked
  exact ⟨names, walked, found, increasing, kept "2.0" fun state member => (each state member).2⟩

end FerroProtocols.Oci
