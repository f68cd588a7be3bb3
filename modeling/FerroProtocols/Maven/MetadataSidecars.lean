import FerroProtocols.Maven.Sidecars

/-! Uploads to the paths of the sidecars of documents. -/

namespace FerroProtocols.Maven

open BlobStore Std Texts MavenServer

variable {ι : Type}

namespace MavenServer

variable (server : MavenServer)

/-- The document that a body is read as. -/
def documentOf (body : Bytes) : Option MavenMetadata :=
  (fromUtf8 body).bind fun xml => (MavenMetadata.fromXml server.readMetadata xml).toOption

/-- A body declares the checksum of the document that is served. -/
def DeclaresServed (key : MetadataKey) (algo : ChecksumAlgo) (body : Bytes) (state : MavenState ι) : Prop :=
  ∃ doc, state.metadata[key]? = some doc ∧ server.Declares algo body (textBytes doc.toXml)

variable {server} {thread : ι} {events : Nat → MavenEvent} {state : MavenState ι} {repo path : String}
  {layout : LayoutPath} {versionLevel : Bool} {checksum : Option ChecksumAlgo} {body : Bytes}

section Uploads

variable (parsed : parseLayoutPath path = .ok layout)
  (addressed : layout.pathClass = .metadata versionLevel checksum)

include parsed addressed

private theorem perform_put_refused (unread : server.documentOf body = none) :
    ∃ error, server.perform thread (.put repo path body) events state = (state, .answered (.refused error)) := by
  have handled : ∃ error, server.handle thread (.put repo path body) (events 0) state .ready =
      (state, .answered (.refused error)) := by
    simp only [handle, handlePut, parsed, addressed, putMetadata]
    unfold documentOf at unread
    cases decoded : fromUtf8 body with
    | none => exact ⟨_, rfl⟩
    | some xml =>
      rw [decoded, Option.bind_some] at unread
      cases read : MavenMetadata.fromXml server.readMetadata xml with
      | error error => exact ⟨error, by simp only [read]⟩
      | ok doc =>
        rw [read] at unread
        cases unread
  obtain ⟨error, handled⟩ := handled
  exact ⟨error, perform_of_answered handled⟩

private theorem perform_put_document {doc : MavenMetadata} (read : server.documentOf body = some doc) :
    server.perform thread (.put repo path body) events state =
      (state.cache (layout.metadataKey repo versionLevel) doc, .answered (.responded (storedResponse []))) := by
  apply perform_of_answered
  obtain ⟨xml, decoded, accepted⟩ := Option.bind_eq_some_iff.mp read
  simp only [handle, handlePut, parsed, addressed, putMetadata, decoded, Fallible.ok_of_toOption accepted]

end Uploads

end MavenServer

/-- An upload to the path of the sidecar of a document leaves all documents as they are, and succeeds if it
declares the checksum of the document that is served, exactly in two cases: it is read as the document that is
there, or it is not read as a document and does not declare that checksum. -/
theorem metadata_sidecar_iff (server : MavenServer) (thread : ι) (events : Nat → MavenEvent) (state : MavenState ι)
    (repo : String) {path : String} {layout : LayoutPath} {versionLevel : Bool} {algo : ChecksumAlgo}
    (parsed : parseLayoutPath path = .ok layout) (addressed : layout.pathClass = .metadata versionLevel (some algo))
    (body : Bytes) :
    ((∀ key : MetadataKey, (server.perform thread (.put repo path body) events state).1.metadata[key]? =
        state.metadata[key]?) ∧ (server.DeclaresServed (layout.metadataKey repo versionLevel) algo body state →
        ∃ response, (server.perform thread (.put repo path body) events state).2 =
          .answered (.responded response))) ↔
    (∃ doc, server.documentOf body = some doc ∧
      state.metadata[layout.metadataKey repo versionLevel]? = some doc) ∨
    (server.documentOf body = none ∧
      ¬ server.DeclaresServed (layout.metadataKey repo versionLevel) algo body state) := by
  cases read : server.documentOf body with
  | none =>
    obtain ⟨error, refused⟩ :=
      @MavenServer.perform_put_refused ι server thread events state repo path layout versionLevel
      (some algo) body parsed addressed read
    rw [refused]
    constructor
    · rintro ⟨-, succeeds⟩
      refine .inr ⟨rfl, fun declares => ?_⟩
      obtain ⟨response, answered⟩ := succeeds declares
      cases answered
    · rintro (⟨doc, impossible, -⟩ | ⟨-, silent⟩)
      · cases impossible
      · exact ⟨fun _ => rfl, fun declares => absurd declares silent⟩
  | some doc =>
    rw [perform_put_document parsed addressed read]
    constructor
    · rintro ⟨same, -⟩
      refine .inl ⟨doc, rfl, ?_⟩
      rw [← same, MavenState.getElem?_cache, if_pos rfl]
    · rintro (⟨found, own, cached⟩ | ⟨impossible, -⟩)
      · cases own
        refine ⟨fun key => ?_, fun _ => ⟨_, rfl⟩⟩
        rw [MavenState.getElem?_cache]
        split
        · rename_i same
          rw [← same, cached]
        · rfl
      · cases impossible

section Runs

/-- The path of the checksum of an index. -/
def indexChecksumPath : String := "org/demo/maven-metadata.xml.sha1"

/-- An index. -/
def demoIndex : MavenMetadata := .artifactIndex "org" "demo" ["1.0"] MavenEvent.sample.now

/-- A repository with this index. -/
def withIndex : MavenState Unit := (MavenState.new Unit).cache (demo.indexKey "releases") demoIndex

private theorem indexChecksumPath_parsed : ∃ layout, parseLayoutPath indexChecksumPath = .ok layout ∧
    layout.pathClass = .metadata false (some .sha1) ∧
      layout.metadataKey "releases" false = demo.indexKey "releases" := by
  have evaluated : ((parseLayoutPath indexChecksumPath).toOption.map fun layout =>
      (layout.pathClass, layout.metadataKey "releases" false)) =
      some (.metadata false (some .sha1), demo.indexKey "releases") := by
    decide +kernel
  obtain ⟨layout, parsed, read⟩ := Fallible.exists_of_toOption_map evaluated
  exact ⟨layout, parsed, Prod.mk.inj read⟩

/-- A repository that reads the XML of this index. -/
def indexReader : MavenServer where
  hashes := sample.hashes
  readPom := sample.readPom
  readMetadata xml :=
    if xml = demoIndex.toXml then
      .value ⟨some "org", some "demo", none,
        some ⟨some "1.0", some "1.0", none, some ["1.0"], none, some "20260101000000"⟩⟩
    else .failed "no metadata"

/-- A body that is read as the index changes nothing. -/
theorem metadata_sidecar_iff_index : indexReader.documentOf (textBytes demoIndex.toXml) = some demoIndex ∧
      ∀ key : MetadataKey, (indexReader.perform () (.put "releases" indexChecksumPath (textBytes demoIndex.toXml))
        (fun _ => .sample) withIndex).1.metadata[key]? = withIndex.metadata[key]? := by
  obtain ⟨layout, parsed, addressed, key⟩ := indexChecksumPath_parsed
  have read : indexReader.documentOf (textBytes demoIndex.toXml) = some demoIndex := by
    rw [documentOf, fromUtf8_textBytes]
    decide +kernel
  refine ⟨read, ((metadata_sidecar_iff indexReader () (fun _ => .sample) withIndex "releases" parsed addressed _).mpr
    (.inl ⟨demoIndex, read, ?_⟩)).1⟩
  rw [key, withIndex, MavenState.getElem?_cache, if_pos rfl]

/-- The checksum of the index is refused. -/
theorem index_checksum_refused :
    let body := textBytes (String.ofList (Hex.encode (indexReader.hashes.sha1.hash (textBytes demoIndex.toXml))))
    ∃ layout error, parseLayoutPath indexChecksumPath = .ok layout ∧
      layout.pathClass = .metadata false (some .sha1) ∧
      indexReader.DeclaresServed (layout.metadataKey "releases" false) .sha1 body withIndex ∧
      (indexReader.perform () (.put "releases" indexChecksumPath body) (fun _ => .sample) withIndex).2 =
        .answered (.refused error) := by
  intro body
  obtain ⟨layout, parsed, addressed, key⟩ := indexChecksumPath_parsed
  have unread : indexReader.documentOf body = none := by
    rw [documentOf, fromUtf8_textBytes]
    decide +kernel
  obtain ⟨error, refused⟩ := @MavenServer.perform_put_refused Unit indexReader () (fun _ => .sample) withIndex
    "releases" indexChecksumPath layout false (some .sha1) body parsed addressed unread
  refine ⟨layout, error, parsed, addressed, ⟨demoIndex, ?_, _, parseSidecar_textBytes rfl, rfl⟩, by rw [refused]⟩
  rw [key, withIndex, MavenState.getElem?_cache, if_pos rfl]

end Runs

end FerroProtocols.Maven
