import FerroProtocols.Maven.Entries

/-! Sidecars and their artifacts. -/

namespace FerroProtocols.Maven

open BlobStore Std Texts MavenServer

/-- The path of a sidecar. -/
def sidecarPath (path : String) (algo : ChecksumAlgo) : String := path ++ ("." ++ algo.extension)

section Paths

variable {path : String} {coord other : Coordinate} {algo : ChecksumAlgo}

private theorem mavenMetadataSuffix_sidecar {name : String} (plain : mavenMetadataSuffix name = none) :
    mavenMetadataSuffix (name ++ "." ++ algo.extension) = none := by
  have last (stem ext : String) (tight : '.' ∉ ext.toList)
    (same : name ++ "." ++ algo.extension = stem ++ "." ++ ext) :
      name = stem ∧ algo.extension = ext :=
    join_inj_last (by decide) same algo.dot_notMem_extension tight
  unfold mavenMetadataSuffix
  split
  · -- The extension of the document is not one of a checksum.
    rename_i raw
    have impossible := (last "maven-metadata" "xml" (by decide) raw).2
    cases algo <;> exact absurd impossible (by decide)
  · split
    · rename_i rest start
      by_contra found
      obtain ⟨kind, found⟩ := Option.ne_none_iff_exists'.mp found
      obtain ⟨algo', known, -⟩ := Option.map_eq_some_iff.mp found
      rw [ChecksumAlgo.fromExtension_eq_some_iff] at known
      rw [stripPrefix_eq_some_iff, known] at start
      have doc := (last "maven-metadata.xml" _ algo'.dot_notMem_extension start).1
      rw [doc] at plain
      cases plain
    · rfl

private theorem slash_notMem_extension (algo : ChecksumAlgo) : '/' ∉ ("." ++ algo.extension).toList := by
  cases algo <;> decide

private theorem segments_sidecarPath (algo : ChecksumAlgo) (several : 1 < (segments path).length) :
    ∃ before, (∃ name, segments path = before ++ [name] ∧
        segments (sidecarPath path algo) = before ++ [name ++ "." ++ algo.extension]) ∨
      segments path = before ∧ segments (sidecarPath path algo) = before ++ ["." ++ algo.extension] := by
  cases cut : rsplitOnce '/' path with
  | none =>
    -- Without a slash there is one segment at most.
    rw [rsplitOnce_eq_none_iff] at cut
    rw [segments_eq, split_of_notMem cut] at several
    exact absurd several (Nat.not_lt.mpr (List.length_filter_le _ _))
  | some parts =>
    obtain ⟨left, right⟩ := parts
    obtain ⟨joined, tight⟩ := rsplitOnce_eq_some_iff.mp cut
    have whole : path = left ++ "/" ++ right := by
      rw [← String.toList_inj, joined]
      simp
    have apart : '/' ∉ (right ++ ("." ++ algo.extension)).toList := by
      rw [String.toList_append, List.mem_append]
      exact not_or.mpr ⟨tight, slash_notMem_extension algo⟩
    have filled : right ++ ("." ++ algo.extension) ≠ "" := by
      intro empty
      have length := congrArg (fun text => text.toList.length) empty
      simp at length
    have after : segments (sidecarPath path algo) = segments left ++ [right ++ ("." ++ algo.extension)] := by
      rw [sidecarPath, whole, String.append_assoc, segments_append, segments_of_notMem filled apart]
    rw [after, whole, segments_append]
    refine ⟨segments left, ?_⟩
    by_cases slash : right = ""
    · right
      rw [slash, segments_eq ""]
      exact ⟨List.append_nil _, by rw [String.empty_append]⟩
    · left
      exact ⟨right, by rw [segments_of_notMem slash tight], by rw [String.append_assoc]⟩

private theorem parseLayoutPath_sidecarPath (parsed : parseLayoutPath path = .ok ⟨coord, .artifact⟩)
    {layout : LayoutPath}
    (sidecar : parseLayoutPath (sidecarPath path algo) = .ok layout) : layout = ⟨coord, .checksum algo⟩ := by
  obtain ⟨group, file⟩ := parseLayoutPath_artifact_iff.mp parsed
  have several : 1 < (segments path).length := by
    rw [file.segmented]
    simp
  obtain ⟨before, ⟨name, segmented, after⟩ | ⟨segmented, after⟩⟩ := segments_sidecarPath algo several
  · -- The name of the artifact gets the extension of the checksum.
    have split : group ++ [coord.artifactId, coord.version] ++ [coord.filename] = before ++ [name] := by
      rw [← segmented, file.segmented, List.append_assoc]
      rfl
    obtain ⟨rfl, names⟩ := List.append_inj' split rfl
    obtain rfl := List.singleton_inj.mp names
    have named : IsFile (sidecarPath path algo) coord (some algo) group
        (coord.filename ++ "." ++ algo.extension) :=
      ⟨file.grouped, by rw [after, List.append_assoc]; rfl, file.groupId, mavenMetadataSuffix_sidecar file.plain,
        stripChecksumSuffix_eq_some_iff.mpr rfl, file.named⟩
    exact Except.ok.inj (sidecar.symm.trans (parseLayoutPath_file_iff.mpr ⟨group, _, named⟩))
  · -- The extension alone is not the name of a file.
    have plain : mavenMetadataSuffix ("." ++ algo.extension) = none := by cases algo <;> decide
    obtain ⟨checksum, isFile⟩ := exists_fileClass after plain sidecar
    obtain ⟨found, pathClass⟩ := layout
    cases isFile
    obtain ⟨group', name', other⟩ := parseLayoutPath_file_iff.mp sidecar
    have names : name' = "" ++ "." ++ algo.extension := by
      have ends := congrArg List.getLast? (other.segmented.symm.trans after)
      simpa using ends
    have stripped := stripChecksumSuffix_eq_some_iff.mpr names
    rw [other.stripped] at stripped
    have empty : found.filename = "" := congrArg Prod.fst stripped
    have dash : '-' ∈ found.filename.toList := by
      rw [Coordinate.filename, Coordinate.filenameOf_eq_append]
      simp
    rw [empty] at dash
    cases dash

private theorem artifactKey_ne_sidecarKey {repo repo' path' : String}
    (parsed : parseLayoutPath path = .ok ⟨coord, .artifact⟩)
    (sidecar : parseLayoutPath path' = .ok ⟨other, .checksum algo⟩) : buildKey repo path ≠ buildKey repo' path' := by
  intro same
  obtain ⟨group, file⟩ := parseLayoutPath_artifact_iff.mp parsed
  obtain ⟨group', name, file'⟩ := (@parseLayoutPath_file_iff path' other (some algo)).mp sidecar
  have segmented := congrArg segments same
  rw [segments_buildKey, segments_buildKey, file.segmented, file'.segmented] at segmented
  have names : coord.filename = name := by
    have ends := congrArg List.getLast? segmented
    simpa using ends
  have checksums := file'.stripped
  rw [← names, file.stripped] at checksums
  cases congrArg Prod.snd checksums

private theorem sidecarKey_inj {repo repo' path' : String} {algo' : ChecksumAlgo}
    (same : buildKey repo (sidecarPath path algo) = buildKey repo' (sidecarPath path' algo')) :
    buildKey repo path = buildKey repo' path' ∧ algo = algo' := by
  have joined : buildKey repo path ++ "." ++ algo.extension = buildKey repo' path' ++ "." ++ algo'.extension := by
    simpa only [buildKey, sidecarPath, String.append_assoc] using same
  obtain ⟨keys, extensions⟩ := join_inj_last (by decide) joined algo.dot_notMem_extension algo'.dot_notMem_extension
  exact ⟨keys, ChecksumAlgo.extension_injective extensions⟩

end Paths

/-- A sidecar declares the checksum of bytes. -/
def MavenServer.Declares (server : MavenServer) (algo : ChecksumAlgo) (sidecar bytes : Bytes) : Prop :=
  ∃ hex, parseSidecar algo sidecar = .ok hex ∧ computeChecksum server.hashes algo bytes = some hex

/-- Whether a sidecar declares a checksum is found out by reading it. -/
instance MavenServer.Declares.instDecidable (server : MavenServer) (algo : ChecksumAlgo) (sidecar bytes : Bytes) :
    Decidable (server.Declares algo sidecar bytes) :=
  decidable_of_iff ((parseSidecar algo sidecar).toOption.isSome = true ∧
      (parseSidecar algo sidecar).toOption = computeChecksum server.hashes algo bytes) <| by
    rw [Declares]
    cases parseSidecar algo sidecar with
    | error error => simp [Except.toOption]
    | ok hex => simp [Except.toOption, eq_comm]

variable {ι : Type}

/-- An artifact is uploaded only if the sidecars that are there declare its checksums. -/
def MavenServer.Vouched (server : MavenServer) (state : MavenState ι) (call : MavenCall) : Prop :=
  ∀ repo path coord body, call.request.Uploads repo path coord body → ∀ algo, algo ≠ .md5 →
    ∀ digest, state.layout[buildKey repo (sidecarPath path algo)]? = some digest →
      ∃ sidecar, state.blobs.get digest = .ok sidecar ∧ server.Declares algo sidecar body

/-- Every artifact has the checksums that its sidecars declare. -/
def Matching (server : MavenServer) (bodies : Set Bytes) (state : MavenState ι) : Prop :=
  ∀ repo path coord algo, parseLayoutPath path = .ok ⟨coord, .artifact⟩ →
    parseLayoutPath (sidecarPath path algo) = .ok ⟨coord, .checksum algo⟩ → algo ≠ .md5 →
    ∀ body ∈ bodies, ∀ sidecar ∈ bodies, state.layout[buildKey repo path]? = some (server.digestOf body) →
      state.layout[buildKey repo (sidecarPath path algo)]? = some (server.digestOf sidecar) →
      server.Declares algo sidecar body

section Matching

variable {server : MavenServer} {bodies : Set Bytes} {state : MavenState ι}

/-- Every request keeps this that does not upload an artifact without the checksums of its sidecars. -/
theorem Matching.afterCall (matching : Matching server bodies state) (intact : Intact server bodies state)
    (distinct : Set.InjOn server.digestOf bodies) (thread : ι) {call : MavenCall}
    (known : ∀ body, call.request.upload = some body → body ∈ bodies) (vouched : server.Vouched state call) :
    Matching server bodies (server.afterCall thread state call) := by
  intro repo path coord algo parsed read computed body member sidecar member' found found'
  have performed := server.performs thread call.request call.events intact.unlocked
  rw [MavenServer.afterCall] at found found'
  generalize server.perform thread call.request call.events state = result at performed found found'
  have before := matching repo path coord algo parsed read computed
  cases performed with
  | answers | documents => exact before body member sidecar member' found found'
  | deletes repo' path' digest blobs answer asked there collected =>
    have kept {key : String} {digest : Digest}
        (left : (state.layout.erase (buildKey repo' path'))[key]? = some digest) : state.layout[key]? =
          some digest := by
      rw [ExtTreeMap.getElem?_erase] at left
      split at left
      · cases left
      · exact left
    exact before body member sidecar member' (kept found) (kept found')
  | uploads repo' path' coordinate' body' blobs upload checked put =>
    rw [layout_uploaded_file none parsed] at found
    rw [layout_uploaded_file (some algo) read, if_neg (artifactKey_ne_sidecarKey upload.parsed read)]
      at found'
    split at found
    · -- The sidecar was there before, and declares the checksum of what is uploaded now.
      rename_i own
      have same : body' = body := distinct (known body' (by rw [upload.asked]; rfl)) member (Option.some.inj found)
      have attached : buildKey repo' (sidecarPath path' algo) = buildKey repo (sidecarPath path algo) := by
        have longer := congrArg (· ++ ("." ++ algo.extension)) own
        simpa only [buildKey, sidecarPath, String.append_assoc] using longer
      obtain ⟨stored, there, declares⟩ := vouched repo' path' coordinate' body' upload algo computed _
        (attached ▸ found')
      cases (intact.get_eq distinct member' found').symm.trans there
      rw [← same]
      exact declares
    · exact before body member sidecar member' found found'
  | attaches repo' path' mainPath declared algo' body' blobs attached joined declares compared put =>
    obtain ⟨other, sidecarRead⟩ := attached.parsed
    rw [MavenState.getElem?_enter, if_neg (artifactKey_ne_sidecarKey parsed sidecarRead).symm] at found
    rw [MavenState.getElem?_enter] at found'
    split at found'
    · -- The sidecar is uploaded now, and was compared with the artifact.
      rename_i own
      rw [joined] at own
      obtain ⟨keys, rfl⟩ := sidecarKey_inj own
      have same : body' = sidecar :=
        distinct (known body' (by rw [attached.asked]; rfl)) member' (Option.some.inj found')
      obtain ⟨bytes, stored, matched⟩ := compared _ (keys ▸ found)
      cases (intact.get_eq distinct member found).symm.trans stored
      rw [← same]
      exact ⟨declared, declares, matched⟩
    · exact before body member sidecar member' found found'

end Matching

namespace MavenServer

section Downloads

variable {server : MavenServer} {thread : ι} {state : MavenState ι} {events : Nat → MavenEvent} {repo path : String}
  {coord : Coordinate} {algo : ChecksumAlgo} {response : Response}
  (downloaded : (server.perform thread (.get repo path true) events state).2 = .answered (.responded response))

include downloaded

private theorem exists_of_downloaded : ∃ layout, parseLayoutPath path = .ok layout := by
  cases parsed : parseLayoutPath path with
  | ok layout => exact ⟨layout, rfl⟩
  | error error =>
    have handled : server.handle thread (.get repo path true) (events 0) state .ready =
        (state, .answered (.refused error)) := by
      simp only [handle, serve, parsed]
    rw [perform_of_answered handled] at downloaded
    cases downloaded

variable (unlocked : state.writer = none)

include unlocked

/-- A download of an artifact gives the blob of its entry. -/
private theorem blob_of_downloaded (parsed : parseLayoutPath path = .ok ⟨coord, .artifact⟩) :
    ∃ digest, state.layout[buildKey repo path]? = some digest ∧ state.blobs.get digest = .ok response.body := by
  cases found : state.layout[buildKey repo path]? with
  | none =>
    rw [perform_get_absent unlocked parsed found] at downloaded
    cases downloaded
  | some digest =>
    rw [perform_get_artifact unlocked parsed found] at downloaded
    refine ⟨digest, rfl, ?_⟩
    cases fetched : (events 1).call (state.blobs.get digest) with
    | error error =>
      rw [fetched] at downloaded
      cases downloaded
    | ok bytes =>
      rw [fetched] at downloaded
      cases downloaded
      exact of_call_ok fetched

/-- A download of a sidecar gives what was uploaded, or the checksum of the artifact. -/
private theorem declares_of_downloaded (parsed : parseLayoutPath path = .ok ⟨coord, .checksum algo⟩) :
    (∃ digest, state.layout[buildKey repo path]? = some digest ∧ state.blobs.get digest = .ok response.body) ∨
      ∃ mainPath digest bytes, path = sidecarPath mainPath algo ∧
        state.layout[buildKey repo mainPath]? = some digest ∧
        state.blobs.get digest = .ok bytes ∧ server.Declares algo response.body bytes := by
  cases found : state.layout[buildKey repo path]? with
  | some digest =>
    left
    rw [perform_get_sidecar unlocked parsed found] at downloaded
    refine ⟨digest, rfl, ?_⟩
    cases fetched : (events 1).call (state.blobs.get digest) with
    | error error =>
      rw [fetched] at downloaded
      cases downloaded
    | ok bytes =>
      rw [fetched] at downloaded
      cases downloaded
      exact of_call_ok fetched
  | none =>
    right
    by_cases stored : ∃ mainPath digest, path = mainPath ++ ("." ++ algo.extension) ∧
      state.layout[buildKey repo mainPath]? = some digest
    · obtain ⟨mainPath, digest, joined, main⟩ := stored
      rw [perform_get_computed unlocked parsed found joined main] at downloaded
      cases fetched : (events 2).call (state.blobs.get digest) with
      | error error =>
        rw [fetched] at downloaded
        cases downloaded
      | ok bytes =>
        rw [fetched, computedSidecar] at downloaded
        cases computed : computeChecksum server.hashes algo bytes with
        | none =>
          rw [computed] at downloaded
          cases downloaded
        | some hex =>
          rw [computed] at downloaded
          cases downloaded
          exact ⟨mainPath, digest, bytes, joined, main, of_call_ok fetched, hex, parseSidecar_textBytes computed,
            computed⟩
    · rw [perform_get_no_checksum unlocked parsed found fun mainPath joined =>
        Option.eq_none_iff_forall_ne_some.mpr fun digest main => stored ⟨mainPath, digest, joined, main⟩]
          at downloaded
      cases downloaded

end Downloads

end MavenServer

/-- After any requests of which none uploads an artifact while there are sidecars that do not declare its
checksums, and without two bodies that have the same digest: a sidecar that is downloaded declares the
checksum of the artifact. -/
theorem sidecars_match (server : MavenServer) (thread : ι) (calls : List MavenCall)
    (distinct : Set.InjOn server.digestOf {body | ∃ call ∈ calls, call.request.upload = some body})
    (vouched : Runs.Along (server.afterCall thread) server.Vouched (MavenState.new ι) calls)
    {repo path : String} {coord : Coordinate} {algo : ChecksumAlgo}
    (parsed : parseLayoutPath path = .ok ⟨coord, .artifact⟩) (computed : algo ≠ .md5)
    (events events' : Nat → MavenEvent) {file sidecar : Response}
    (downloaded : (server.perform thread (.get repo path true) events
      (server.afterCalls thread (MavenState.new ι) calls)).2 = .answered (.responded file))
    (attached : (server.perform thread (.get repo (sidecarPath path algo) true) events'
      (server.afterCalls thread (MavenState.new ι) calls)).2 = .answered (.responded sidecar)) :
    server.Declares algo sidecar.body file.body := by
  have along : Runs.Along (server.afterCall thread) (fun state call => server.Vouched state call ∧ call ∈ calls)
    (MavenState.new ι) calls := vouched.and_of_forall fun _ member => member
  generalize bodiesEq : {body | ∃ call ∈ calls, call.request.upload = some body} = bodies at distinct
  obtain ⟨intact, matching⟩ : Intact server bodies (server.afterCalls thread (MavenState.new ι) calls) ∧
      Matching server bodies (server.afterCalls thread (MavenState.new ι) calls) := by
    refine along.invariant (motive := fun state => Intact server bodies state ∧ Matching server bodies state) ?_
      ⟨Intact.new, fun _ _ _ _ _ _ _ _ _ _ _ found => by cases found⟩
    rintro state call ⟨intact, matching⟩ ⟨vouched, member⟩
    have known : ∀ body, call.request.upload = some body → body ∈ bodies := by
      rw [← bodiesEq]
      exact fun body uploads => ⟨call, member, uploads⟩
    exact ⟨intact.afterCall distinct thread known, matching.afterCall intact distinct thread known vouched⟩
  obtain ⟨layout, read⟩ := exists_of_downloaded attached
  cases parseLayoutPath_sidecarPath parsed read
  obtain ⟨digest, found, blob⟩ := blob_of_downloaded downloaded intact.unlocked parsed
  obtain ⟨body, member, rfl, stored⟩ := intact.entries _ _ found
  cases stored.symm.trans blob
  rcases declares_of_downloaded attached intact.unlocked read with
    ⟨digest', found', blob'⟩ | ⟨mainPath, digest', bytes, joined, found', blob', declares⟩
  · obtain ⟨side, member', rfl, stored'⟩ := intact.entries _ _ found'
    cases stored'.symm.trans blob'
    exact matching repo path coord algo parsed read computed _ member _ member' found found'
  · -- The checksum is computed from the same blob.
    obtain ⟨keys, -⟩ := @sidecarKey_inj path algo repo repo mainPath algo (by rw [joined])
    rw [← keys, found, Option.some.injEq] at found'
    rw [← found', blob, Except.ok.injEq] at blob'
    rw [blob']
    exact declares

section Runs

/-- The sidecar with the SHA-1 checksum of bytes, as the sample computes it. -/
def sha1Sidecar (bytes : Bytes) : Bytes := textBytes (String.ofList (Hex.encode (sample.hashes.sha1.hash bytes)))

/-- The checksum of a jar is uploaded, and then a jar. -/
def checksumAndJar (body : Bytes) : List MavenCall :=
  [deploy "org/demo/1.0/demo-1.0.jar.sha1" (sha1Sidecar [1]), deploy "org/demo/1.0/demo-1.0.jar" body]

private theorem MavenServer.vouched_of_ne {server : MavenServer} {state : MavenState ι} {call : MavenCall}
    {repo path : String} {body : Bytes} (asked : call.request = .put repo path body)
    (other : ∀ coord, parseLayoutPath path ≠ .ok ⟨coord, .artifact⟩) : server.Vouched state call := by
  rintro repo' path' coord body' ⟨asked', parsed⟩
  cases asked.symm.trans asked'
  exact absurd parsed (other coord)

private theorem MavenServer.vouched_of_sha1 {server : MavenServer} {state : MavenState ι} {call : MavenCall}
    {repo path : String} {body sidecar : Bytes} {digest : Digest} (asked : call.request = .put repo path body)
    (sha1 : state.layout[buildKey repo (sidecarPath path .sha1)]? = some digest)
    (sha256 : state.layout[buildKey repo (sidecarPath path .sha256)]? = none)
    (sha512 : state.layout[buildKey repo (sidecarPath path .sha512)]? = none)
    (stored : state.blobs.get digest = .ok sidecar) (declares : server.Declares .sha1 sidecar body) :
    server.Vouched state call := by
  rintro repo' path' coord body' ⟨asked', -⟩ algo computed digest' found
  cases asked.symm.trans asked'
  cases algo with
  | md5 => exact absurd rfl computed
  | sha1 =>
    cases sha1.symm.trans found
    exact ⟨sidecar, stored, declares⟩
  | sha256 => cases sha256.symm.trans found
  | sha512 => cases sha512.symm.trans found

/-- A jar that is uploaded after its checksum is served with it. -/
theorem sidecars_match_staged : let state := sample.afterCalls () (MavenState.new Unit) (checksumAndJar [1])
    ∃ file sidecar : Response,
      (sample.perform () (.get "releases" "org/demo/1.0/demo-1.0.jar" true) (fun _ => .sample) state).2 =
        .answered (.responded file) ∧
      (sample.perform () (.get "releases" (sidecarPath "org/demo/1.0/demo-1.0.jar" .sha1) true)
        (fun _ => .sample) state).2 = .answered (.responded sidecar) ∧
      sample.Declares .sha1 sidecar.body file.body := by
  intro state
  let staged := sample.afterCall () (MavenState.new Unit)
    (deploy "org/demo/1.0/demo-1.0.jar.sha1" (sha1Sidecar [1]))
  have evaluated : (parseLayoutPath "org/demo/1.0/demo-1.0.jar" = .ok ⟨demo, .artifact⟩ ∧
        parseLayoutPath "org/demo/1.0/demo-1.0.jar.sha1" = .ok ⟨demo, .checksum .sha1⟩) ∧
      ((sample.perform () (.get "releases" "org/demo/1.0/demo-1.0.jar" true) (fun _ => .sample) state).2 =
          .answered (.responded (buildArtifactResponse sample.hashes demo (sample.digestOf [1]) [1] true)) ∧
        (sample.perform () (.get "releases" (sidecarPath "org/demo/1.0/demo-1.0.jar" .sha1) true)
          (fun _ => .sample) state).2 = .answered (.responded (buildRawResponse (sha1Sidecar [1]) true))) ∧
      (staged.layout[buildKey "releases" (sidecarPath "org/demo/1.0/demo-1.0.jar" .sha1)]? =
          some (sample.digestOf (sha1Sidecar [1])) ∧
        staged.layout[buildKey "releases" (sidecarPath "org/demo/1.0/demo-1.0.jar" .sha256)]? = none ∧
        staged.layout[buildKey "releases" (sidecarPath "org/demo/1.0/demo-1.0.jar" .sha512)]? = none ∧
        staged.blobs.get (sample.digestOf (sha1Sidecar [1])) = .ok (sha1Sidecar [1])) ∧
      sample.Declares .sha1 (sha1Sidecar [1]) [1] ∧
      sample.digestOf (sha1Sidecar [1]) ≠ sample.digestOf [1] := by
    decide +kernel
  obtain ⟨⟨parsed, attached⟩, ⟨downloaded, downloaded'⟩, ⟨sha1, sha256, sha512, stored⟩, declares, apart⟩ :=
    evaluated
  have other : ∀ coord, parseLayoutPath "org/demo/1.0/demo-1.0.jar.sha1" ≠ .ok ⟨coord, .artifact⟩ := by
    rw [attached]
    exact fun _ same => by cases same
  have vouched : Runs.Along (sample.afterCall ()) sample.Vouched (MavenState.new Unit)
      (checksumAndJar [1]) :=
    ⟨vouched_of_ne rfl other, vouched_of_sha1 rfl sha1 sha256 sha512 stored declares, trivial⟩
  refine ⟨_, _, downloaded, downloaded', sidecars_match sample () (checksumAndJar [1]) ?_ vouched parsed
    (by decide) _ _ downloaded downloaded'⟩
  refine (Set.injOn_pair.mpr fun same => absurd same apart).mono ?_
  rintro body ⟨call, member, uploads⟩
  simp only [checksumAndJar, List.mem_cons, List.not_mem_nil, or_false] at member
  rcases member with rfl | rfl <;> cases uploads
  · exact .inl rfl
  · exact .inr rfl

/-- A checksum that was uploaded first is served with whatever is uploaded later. -/
theorem sidecar_differs : let state := sample.afterCalls () (MavenState.new Unit) (checksumAndJar [1, 2])
    ∃ file sidecar : Response,
      (sample.perform () (.get "releases" "org/demo/1.0/demo-1.0.jar" true) (fun _ => .sample) state).2 =
        .answered (.responded file) ∧
      (sample.perform () (.get "releases" (sidecarPath "org/demo/1.0/demo-1.0.jar" .sha1) true)
        (fun _ => .sample) state).2 = .answered (.responded sidecar) ∧
      ¬ sample.Declares .sha1 sidecar.body file.body := by
  refine ⟨buildArtifactResponse sample.hashes demo (sample.digestOf [1, 2]) [1, 2] true,
    buildRawResponse (sha1Sidecar [1]) true, ?_⟩
  decide +kernel

end Runs

end FerroProtocols.Maven
