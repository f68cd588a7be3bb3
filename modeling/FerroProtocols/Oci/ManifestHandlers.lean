import FerroProtocols.Oci.Names

/-! The handlers that push a manifest and delete one by its digest, with the parser of JSON as a parameter. -/

namespace FerroProtocols.Oci

open BlobStore Std

/-- A JSON value; the entries of an object have different names. -/
inductive Value where
  | null
  | bool (value : Bool)
  | number (text : String)
  | string (text : String)
  | array (items : List Value)
  | object (entries : List (String × Value))

namespace Value

/-- The entry of an object under a name. -/
def get (value : Value) (name : String) : Option Value :=
  match value with
  | .object entries => entries.lookup name
  | _ => none

/-- The text of a value that is one. -/
def asStr : Value → Option String
  | .string text => some text
  | _ => none

/-- The items of an array. -/
def asArray : Value → Option (List Value)
  | .array items => some items
  | _ => none

/-- The entries of an object. -/
def asObject : Value → Option (List (String × Value))
  | .object entries => some entries
  | _ => none

/-- The text of an entry. -/
def getStr (value : Value) (name : String) : Option String := (value.get name).bind asStr

end Value

/-- What a manifest is by its media type. -/
inductive ManifestKind where
  | imageManifest
  | imageIndex
  | artifact
  deriving DecidableEq, Repr

/-- The kind of manifest a content type stands for, whatever its parameters are. -/
def classifyManifestMediaType (contentType : String) : Option ManifestKind :=
  let bare := String.ofList
    (ContentRange.trim (contentType.toList.takeWhile fun ch => decide (ch ≠ ';')))
  if bare = "application/vnd.oci.image.manifest.v1+json" ∨
      bare = "application/vnd.docker.distribution.manifest.v2+json" then some .imageManifest
  else if bare = "application/vnd.oci.image.index.v1+json" ∨
      bare = "application/vnd.docker.distribution.manifest.list.v2+json" then some .imageIndex
  else if "application/vnd.".toList.isPrefixOf bare.toList ∧
      "+json".toList.isSuffixOf bare.toList then some .artifact
  else none

/-- The digest of the empty object, which counts as present everywhere. -/
def ociEmptyDescriptorDigest : String :=
  "sha256:44136fa355b3678a1146ad16f7e8649e94fb4fc21fe77e8310c060f61caaff8a"

/-- Whether the blob store holds a blob. -/
abbrev BlobView := Digest → Except BlobStoreError Bool

/-- Make a check for each text in order, up to the first that fails. -/
def checkEach (check : String → Except OciError Unit) : List String → Except OciError Unit
  | [] => .ok ()
  | text :: rest =>
    match check text with
    | .error error => .error error
    | .ok () => checkEach check rest

/-- The digests that the items of an array declare. -/
def declaredDigests (items : Option Value) : List String :=
  ((items.bind Value.asArray).getD []).filterMap fun item => item.getStr "digest"

/-- What all manifest handlers share. -/
structure ManifestServer where
  sha : Sha256
  fromSlice : Bytes → Except String Value

/-- A request that changes manifests, with the references as it spells them. -/
inductive ManifestRequest where
  -- The content type may be missing or unreadable.
  | put (name ref : String) (contentType : Option String) (body : Bytes)
  | delete (name ref : String)

/-- How a request is answered. -/
inductive ManifestAnswer where
  -- Status 201, for a manifest that was stored.
  | created (headers : List (String × String))
  -- Status 202, for one that was deleted.
  | accepted
  | refused (error : OciError)
  deriving DecidableEq

/-- A put that has passed all checks. -/
structure CheckedPut where
  reference : Reference
  contentType : String
  parsed : Value

namespace ManifestServer

variable (server : ManifestServer)

/-- Check that a blob a manifest refers to is there. -/
def checkBlobPresent (contains : BlobView) (digestStr : String) : Except OciError Unit :=
  -- The empty descriptor need not be stored.
  if digestStr = ociEmptyDescriptorDigest then .ok ()
  else
    match Digest.parse digestStr with
    | .error error =>
      .error ⟨.manifestInvalid, "invalid digest `" ++ digestStr ++ "`: " ++ error.text,
        none⟩
    | .ok digest =>
      match contains digest with
      | .error error => .error (.ofBlobStore error)
      | .ok false =>
        .error ⟨.manifestBlobUnknown, "referenced blob " ++ digestStr ++ " not present", none⟩
      | .ok true => .ok ()

/-- Check that a manifest an index refers to is there, as a manifest or as a blob. -/
def checkManifestPresent (contains : BlobView) (state : InMemoryState) (name digestStr : String) :
    Except OciError Unit :=
  match Digest.parse digestStr with
  | .error error =>
    .error ⟨.manifestInvalid, "invalid digest in manifests[]: " ++ error.text, none⟩
  | .ok digest =>
    match state.getManifest name (.digest digest) with
    | .error error => .error (.ofBlobStore error)
    | .ok (some _) => .ok ()
    -- A manifest that is stored as a blob will do.
    | .ok none =>
      match contains digest with
      | .error error => .error (.ofBlobStore error)
      | .ok false =>
        .error ⟨.manifestBlobUnknown, "referenced manifest digest " ++ digestStr ++ " not present",
          none⟩
      | .ok true => .ok ()

/-- Check that all a manifest refers to is there. -/
def verifyReferencedBlobs (contains : BlobView) (state : InMemoryState) (name : String)
    (parsed : Value) : ManifestKind → Except OciError Unit
  | .imageManifest | .artifact =>
    let config := ((parsed.get "config").bind fun config => config.getStr "digest").toList
    checkEach (checkBlobPresent contains) (config ++ declaredDigests (parsed.get "layers"))
  | .imageIndex =>
    checkEach (checkManifestPresent contains state name)
      (declaredDigests (parsed.get "manifests"))

/-- Check that a digest a manifest is pushed by is the one of its body. -/
def checkReference (digest : Digest) : Reference → Except OciError Unit
  | .tag _ => .ok ()
  | .digest declared =>
    if declared.algo ≠ digest.algo then
      .error ⟨.digestInvalid, "unsupported manifest digest algorithm `" ++ declared.algo.prefixText ++
        "`: only sha256 is supported", none⟩
    else if declared.hex ≠ digest.hex then
      .error ⟨.digestInvalid, "manifest digest mismatch: reference " ++ declared.toString ++
        ", computed " ++ digest.toString, none⟩
    else .ok ()

/-- All that is checked about a manifest before it is stored. -/
def checkPut (contains : BlobView) (state : InMemoryState) (name referenceStr : String)
    (contentType : Option String) (body : Bytes) : Except OciError CheckedPut :=
  -- The answer names the first check that fails, in this order.
  match validateName name with
  | .error error => .error error
  | .ok () =>
    match parseReference referenceStr with
    | .error error => .error error
    | .ok ref =>
      match contentType with
      | none => .error ⟨.manifestInvalid, "missing Content-Type", none⟩
      | some contentType =>
        match classifyManifestMediaType contentType with
        | none =>
          .error ⟨.manifestInvalid, "unsupported manifest media type `" ++ contentType ++ "`", none⟩
        | some kind =>
          match server.fromSlice body with
          | .error message =>
            .error ⟨.manifestInvalid, "manifest is not valid JSON: " ++ message, none⟩
          | .ok parsed =>
            match verifyReferencedBlobs contains state name parsed kind with
            | .error error => .error error
            | .ok () =>
              match checkReference (Digest.sha256Of server.sha body) ref with
              | .error error => .error error
              | .ok () => .ok ⟨ref, contentType, parsed⟩

/-- The artifact type of a manifest; an empty one counts as missing. -/
def artifactType (parsed : Value) : Option String :=
  match (parsed.getStr "artifactType").filter fun text => !text.isEmpty with
  | some text => some text
  | none => (parsed.get "config").bind fun config => config.getStr "mediaType"

/-- The annotations of a manifest that are texts. -/
def annotations (parsed : Value) : Option (ExtTreeMap String String) :=
  ((parsed.get "annotations").bind Value.asObject).map fun entries =>
    ExtTreeMap.ofList (entries.filterMap fun (name, value) => value.asStr.map fun text => (name, text))

/-- The text of the subject that a manifest declares. -/
def subjectText (parsed : Value) : Option String :=
  (parsed.get "subject").bind fun subject => subject.getStr "digest"

/-- The subject of a manifest and its descriptor, if it declares a digest that can be read. -/
def buildReferrer (parsed : Value) (digest : Digest) (contentType : String) (bodyLen : Nat) :
    Option (Digest × ReferrerDescriptor) :=
  match (subjectText parsed).map Digest.parse with
  | some (.ok subject) =>
    some (subject, ⟨contentType, digest, UInt64.ofNat bodyLen, artifactType parsed,
      annotations parsed⟩)
  | _ => none

/-- The answer for a mutation that could not be carried out. -/
def mapMutationError (error : BlobStoreError) : OciError :=
  match error with
  | .io error =>
    ⟨.unsupported, "registry metadata could not be persisted durably: " ++ error.message, some 500⟩
  | error => .ofBlobStore error

/-- A text that can stand in a header. -/
def isHeaderValue (text : String) : Bool :=
  text.toList.all fun ch =>
    decide (32 ≤ ch.toNat ∧ ch.toNat < 127 ∨ ch = '\t')

/-- The headers of the answer for a manifest that was stored. -/
def manifestCreatedHeaders (name : String) (digest : Digest) (parsed : Value) :
    List (String × String) :=
  let subject := ((subjectText parsed).filter isHeaderValue).toList
  [("Location", "/v2/" ++ name ++ "/manifests/" ++ digest.toString),
    ("Docker-Content-Digest", digest.toString)] ++
    subject.map (fun text => ("OCI-Subject", text)) ++ [("Content-Length", "0")]

/-- The change to the registry that a put asks for once it has been checked. -/
def putMutation (name : String) (body : Bytes) (checked : CheckedPut) : Mutation :=
  let digest := Digest.sha256Of server.sha body
  .putManifestWithReferrer name checked.reference digest checked.contentType body
    (buildReferrer checked.parsed digest checked.contentType body.length)

section Handlers

variable {ω : Type} (persist : Persist ω)

/-- Store a manifest. -/
def putManifest (contains : BlobView) (state : InMemoryState) (world : ω)
    (name referenceStr : String) (contentType : Option String) (body : Bytes) :
    ManifestAnswer × InMemoryState × ω :=
  match server.checkPut contains state name referenceStr contentType body with
  | .error error => (.refused error, state, world)
  | .ok checked =>
    -- The manifest, its tag and its referrer entry are one transaction.
    match (server.putMutation name body checked).run persist state world with
    | (.ok _, after) =>
      (.created (manifestCreatedHeaders name (Digest.sha256Of server.sha body) checked.parsed), after)
    | (.error error, after) => (.refused (mapMutationError error), after)

/-- Delete a manifest by its digest. -/
def deleteManifest (state : InMemoryState) (world : ω) (name referenceStr : String) :
    ManifestAnswer × InMemoryState × ω :=
  match validateName name with
  | .error error => (.refused error, state, world)
  | .ok () =>
    match parseReference referenceStr with
    | .error error => (.refused error, state, world)
    | .ok (.tag _) =>
      (.refused ⟨.unsupported, "DELETE manifest by tag is not supported; use digest", some 405⟩,
        state, world)
    | .ok (.digest digest) =>
      match (Mutation.deleteManifest name (.digest digest)).run persist state world with
      | (.ok (some true), after) => (.accepted, after)
      -- Nothing was persisted for a manifest that is not there.
      | (.ok _, after) =>
        (.refused ⟨.manifestUnknown, "manifest " ++ referenceStr ++ " not found in " ++ name, none⟩,
          after)
      | (.error error, after) => (.refused (mapMutationError error), after)

/-- Carry out a request. -/
def handle (contains : BlobView) (req : ManifestRequest) (state : InMemoryState) (world : ω) :
    ManifestAnswer × InMemoryState × ω :=
  match req with
  | .put name ref contentType body =>
    server.putManifest persist contains state world name ref contentType body
  | .delete name ref => deleteManifest persist state world name ref

end Handlers

end ManifestServer

/-- What the handler of a request may ask of the registry. -/
inductive ManifestRequest.Issues (sha : Sha256) : ManifestRequest → Mutation → Prop where
  | put {name referenceStr mediaType : String} {contentType : Option String} {body : Bytes}
      {ref : Reference} {referrer : Option (Digest × ReferrerDescriptor)}
      (named : validateName name = .ok ())
      (tagged : ∀ tag, ref = .tag tag → isValidTag tag = true)
      (refers : ∀ subject desc, referrer = some (subject, desc) →
        desc.digest = Digest.sha256Of sha body ∧
          desc.size = UInt64.ofNat body.length) :
      Issues sha (.put name referenceStr contentType body)
        (.putManifestWithReferrer name ref (Digest.sha256Of sha body) mediaType body referrer)
  | delete {name referenceStr : String} (digest : Digest) :
      Issues sha (.delete name referenceStr) (.deleteManifest name (.digest digest))

namespace ManifestServer

variable (server : ManifestServer)

/-- A referrer entry is one of the manifest itself. -/
theorem buildReferrer_some {parsed : Value} {digest : Digest} {contentType : String}
    {bodyLen : Nat} {subject : Digest} {desc : ReferrerDescriptor}
    (built : buildReferrer parsed digest contentType bodyLen = some (subject, desc)) :
    desc.digest = digest ∧ desc.size = UInt64.ofNat bodyLen := by
  unfold buildReferrer at built
  split at built
  · cases built
    exact ⟨rfl, rfl⟩
  · cases built

private theorem isValidTag_of_parseReference {text tag : String}
    (parsed : parseReference text = .ok (.tag tag)) : isValidTag tag = true := by
  -- Only the last branch gives a tag, after it was checked.
  unfold parseReference at parsed
  split at parsed
  · split at parsed
    · split at parsed <;> cases parsed
    · cases parsed
  · split at parsed
    · rename_i valid
      cases parsed
      exact valid
    · cases parsed

/-- What a put has passed. -/
theorem checkPut_ok {contains : BlobView} {state : InMemoryState} {name referenceStr : String}
    {contentType : Option String} {body : Bytes} {checked : CheckedPut}
    (passed : server.checkPut contains state name referenceStr contentType body = .ok checked) :
    validateName name = .ok () ∧ parseReference referenceStr = .ok checked.reference ∧
      contentType = some checked.contentType ∧ server.fromSlice body = .ok checked.parsed ∧
      checkReference (Digest.sha256Of server.sha body) checked.reference = .ok () ∧
      ∃ kind, classifyManifestMediaType checked.contentType = some kind ∧
        verifyReferencedBlobs contains state name checked.parsed kind = .ok () := by
  unfold checkPut at passed
  -- Each check is passed on the way to the only branch that succeeds.
  split at passed
  · cases passed
  rename_i named
  split at passed
  · cases passed
  rename_i ref refers
  split at passed
  · cases passed
  rename_i declared
  split at passed
  · cases passed
  rename_i kind known
  split at passed
  · cases passed
  rename_i parsed decoded
  split at passed
  · cases passed
  rename_i verified
  split at passed
  · cases passed
  rename_i matches_
  cases passed
  exact ⟨named, refers, rfl, decoded, matches_, kind, known, verified⟩

/-- The mutation that the handler of a request carries out, unless it refuses the request. -/
def issued (contains : BlobView) (state : InMemoryState) : ManifestRequest → Option Mutation
  | .put name referenceStr contentType body =>
    match server.checkPut contains state name referenceStr contentType body with
    | .error _ => none
    | .ok checked => some (server.putMutation name body checked)
  | .delete name referenceStr =>
    match validateName name, parseReference referenceStr with
    | .ok (), .ok (.digest digest) => some (.deleteManifest name (.digest digest))
    | _, _ => none

/-- A mutation that is carried out is one the request may ask for. -/
theorem issues_of_issued {contains : BlobView} {state : InMemoryState} {req : ManifestRequest}
    {mutation : Mutation} (chosen : server.issued contains state req = some mutation) :
    req.Issues server.sha mutation := by
  cases req with
  | put name referenceStr contentType body =>
    simp only [issued] at chosen
    split at chosen
    · cases chosen
    · rename_i checked passed
      cases chosen
      -- The digest, the descriptor and the tag are those of the request that was checked.
      obtain ⟨named, refers, _⟩ := server.checkPut_ok passed
      refine .put named ?_ ?_
      · intro tag same
        rw [same] at refers
        exact isValidTag_of_parseReference refers
      · intro subject desc built
        exact buildReferrer_some built
  | delete name referenceStr =>
    simp only [issued] at chosen
    split at chosen
    · cases chosen
      exact .delete _
    · cases chosen

/-- A handler changes nothing, or does what its mutation does. -/
theorem handle_issued {ω : Type} (persist : Persist ω) (contains : BlobView)
    (req : ManifestRequest) (state : InMemoryState) (world : ω) :
    (server.handle persist contains req state world).2 = match server.issued contains state req with
      | none => (state, world)
      | some mutation => (mutation.run persist state world).2 := by
  cases req with
  | put name ref contentType body =>
    simp only [handle, putManifest, issued]
    cases server.checkPut contains state name ref contentType body with
    | error error => rfl
    | ok checked =>
      -- Whether persisting succeeds decides the answer only.
      dsimp only
      generalize (server.putMutation name body checked).run persist state world = outcome
      rcases outcome with ⟨_ | _, after⟩ <;> rfl
  | delete name ref =>
    simp only [handle, deleteManifest, issued]
    cases validateName name with
    | error error => rfl
    | ok _ =>
      cases parseReference ref with
      | error error => rfl
      | ok parsed =>
        cases parsed with
        | tag tag => rfl
        | digest digest =>
          dsimp only
          generalize (Mutation.deleteManifest name (.digest digest)).run persist state world = outcome
          rcases outcome with ⟨_ | found, after⟩
          · rfl
          · rcases found with _ | _ | _ <;> rfl

end ManifestServer

end FerroProtocols.Oci
