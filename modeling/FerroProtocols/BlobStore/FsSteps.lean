import FerroProtocols.BlobStore.Fs
import Mathlib.Data.List.Dedup
import Std.Data.String.ToNat

/-! What one turn of a call can do to the files, and what it leaves of the work of the other calls. -/

namespace FerroProtocols.BlobStore

open Files Std FileTree

namespace DirStream

variable {names order appeared missed : List String} {stream : DirStream}

/-- The names of a directory are read in some order. -/
theorem mem_start {name : String} : name ∈ (start names order).pending ↔ name ∈ names := by
  simp only [start, List.mem_append, List.mem_filter, List.mem_dedup, decide_eq_true_eq]
  tauto

/-- What reading has learned of meanwhile is there. -/
theorem mem_of_mem_refresh {name : String} (member : name ∈ (stream.refresh names appeared missed).pending) :
    name ∈ stream.pending ∨ name ∈ names := by
  simp only [refresh, List.mem_append, List.mem_filter, decide_eq_true_eq] at member
  rcases member with ⟨inside, _⟩ | ⟨_, inside, _⟩
  · exact .inl inside
  · exact .inr inside

end DirStream

namespace FsBlobStore

section Paths

/-- The algorithms have different directories. -/
theorem prefixText_injective : Function.Injective DigestAlgo.prefixText := by
  intro left right same
  have parsed := DigestAlgo.parsePrefix_prefixText left
  rw [same, DigestAlgo.parsePrefix_prefixText] at parsed
  exact (Option.some.inj parsed).symm

private theorem length_hex (digest : Digest) : digest.hex.toList.length = digest.algo.hexLen := by
  rw [← utf8ByteSize_ofList fun digit member => utf8Size_of_isLower (digest.lower digit member),
    String.ofList_toList, digest.sized]

private theorem shard_append_remainder (digest : Digest) : shard digest ++ remainder digest = digest.hex := by
  rw [shard, remainder, ← String.ofList_append, List.take_append_drop, String.ofList_toList]

private theorem utf8ByteSize_shard (digest : Digest) : (shard digest).utf8ByteSize = 2 := by
  have long := length_hex digest
  have least : 2 ≤ digest.algo.hexLen := by cases digest.algo <;> decide
  rw [shard, utf8ByteSize_ofList fun digit member =>
    utf8Size_of_isLower (digest.lower digit (List.mem_of_mem_take member)), List.length_take]
  omega

private theorem shard_ne_tmp (digest : Digest) : shard digest ≠ ".tmp" := by
  intro same
  have sized := utf8ByteSize_shard digest
  rw [same] at sized
  exact absurd sized (by decide)

/-- The components of the file of a blob. -/
theorem pathFor_eq (digest : Digest) :
    pathFor digest = [digest.algo.prefixText, shard digest, remainder digest] := rfl

/-- Different blobs have different files. -/
theorem pathFor_injective : Function.Injective pathFor := by
  intro left right same
  rw [pathFor_eq, pathFor_eq] at same
  simp only [List.cons.injEq, and_true] at same
  obtain ⟨algos, shards, remainders⟩ := same
  have algo := prefixText_injective algos
  have hex : left.hex = right.hex := by rw [← shard_append_remainder, ← shard_append_remainder, shards, remainders]
  cases left
  cases right
  cases algo
  cases hex
  rfl

/-- A path is one of a temporary file. -/
def IsTemp (path : Path) : Prop := ∃ algo name, path = tmpDir algo ++ [name]

private theorem not_isTemp_pathFor (digest : Digest) : ¬ IsTemp (pathFor digest) := by
  rintro ⟨algo, name, same⟩
  rw [pathFor_eq] at same
  simp only [tmpDir, algoDir, List.cons_append, List.nil_append, List.cons.injEq] at same
  exact shard_ne_tmp digest same.2.1

/-- The temporary files of one process have different names if they have different numbers. -/
theorem number_of_tmpPath {left right : Digest} {pid number other : Nat}
    (same : tmpPath left pid number = tmpPath right pid other) : number = other := by
  simp only [tmpPath, tmpDir, algoDir, List.cons_append, List.nil_append, List.cons.injEq, and_true,
    true_and] at same
  obtain ⟨algos, names⟩ := same
  -- Digests of one algorithm have equally many digits in front.
  have sized : left.hex.toList.length = right.hex.toList.length := by
    rw [length_hex, length_hex, prefixText_injective algos]
  simp only [String.append_assoc] at names
  have texts := String.toList_append.symm.trans ((congrArg String.toList names).trans String.toList_append)
  have behind := String.toList_inj.mp (List.append_inj texts sized).2
  simp only [String.append_right_inj, String.append_left_inj] at behind
  exact Nat.repr_inj.mp behind

end Paths

/-- All files are blobs or temporary, and all directories are those that puts make. -/
structure Layout (tree : FileTree) : Prop where
  files : ∀ (path : Path) (inode : Nat), tree.links[path]? = some inode →
    (∃ digest, path = pathFor digest) ∨ IsTemp path
  dirs : ∀ path : Path, path ∈ tree.dirs →
    (∃ algo, path = algoDir algo ∨ path = tmpDir algo) ∨ ∃ digest, path = shardDir digest

section Layout

variable {tree : FileTree}

/-- An empty root has no files and no directories. -/
theorem layout_empty : Layout .empty :=
  ⟨fun path inode linked => by simp [FileTree.empty] at linked, fun path made => by simp [FileTree.empty] at made⟩

variable {path : Path}

private theorem Layout.length_dir (layout : Layout tree) (made : path ∈ tree.dirs) : path.length ≤ 2 := by
  rcases layout.dirs path made with ⟨algo, rfl | rfl⟩ | ⟨digest, rfl⟩
  · exact Nat.le_succ 1
  · exact Nat.le_refl 2
  · exact Nat.le_refl 2

/-- A file in the directory of a shard is that of a blob, and its name is the rest of the digest. -/
theorem blob_of_child (layout : Layout tree) {algo : DigestAlgo} {name file : String}
    (shards : isShardName name = true) (inside : file ∈ tree.children (algoDir algo ++ [name])) :
    ∃ digest, pathFor digest = algoDir algo ++ [name] ++ [file] ∧
      tree.isFile (pathFor digest) = true ∧ Digest.new algo (name ++ file) = .ok digest := by
  rcases mem_children.mp inside with made | ⟨inode, linked⟩
  · -- Directories do not lie that deep.
    exact absurd (layout.length_dir made) (by simp [algoDir])
  · rcases layout.files _ _ linked with ⟨digest, here⟩ | ⟨other, rest, here⟩
    · refine ⟨digest, here.symm, ?_, ?_⟩
      · rw [← here]
        exact isFile_iff.mpr ⟨inode, linked⟩
      · rw [pathFor_eq] at here
        simp only [algoDir, List.cons_append, List.nil_append, List.cons.injEq, and_true] at here
        obtain ⟨algos, names, files⟩ := here
        rw [prefixText_injective algos, names, files, shard_append_remainder, Digest.new_hex]
    · -- The directory for temporary files is not a shard.
      simp only [algoDir, tmpDir, List.cons_append, List.nil_append, List.cons.injEq] at here
      rw [here.2.1] at shards
      exact absurd shards (by decide)

end Layout

/-- What reading a directory begins with. -/
theorem readDir_ok {event : FsEvent} {tree : FileTree} {path : Path} {stream : DirStream}
    (opened : readDir event tree path = .ok stream) : stream = .start (tree.children path) event.order := by
  unfold readDir at opened
  split at opened
  · cases opened
  · split at opened
    · cases opened
      rfl
    · split at opened <;> cases opened

/-- A file is there, and no temporary path leads to it. -/
def Settled (tree : FileTree) (inode : Nat) : Prop :=
  inode < tree.next ∧ ∀ path : Path, IsTemp path → tree.links[path]? ≠ some inode

private theorem settled_of_linked {tree : FileTree} {digest : Digest} {inode : Nat}
    (linked : tree.links[pathFor digest]? = some inode) : Settled tree inode := by
  refine ⟨tree.linked_lt _ _ linked, fun path temp other => ?_⟩
  rw [tree.linked_once _ _ _ other linked] at temp
  exact not_isTemp_pathFor digest temp

/-- What is read at each digest after a blob was stored or removed. -/
def reading (before : Digest → Option Bytes) (effect : Option (Digest × Option Bytes))
    (digest : Digest) : Option Bytes :=
  match effect with
  | none => before digest
  | some (changed, value) => if changed = digest then value else before digest

/-- A turn changes at most one temporary file and one blob. -/
structure Change (tree after : FileTree) (own : Option Path)
    (effect : Option (Digest × Option Bytes)) : Prop where
  layout : Layout tree → Layout after
  dirs : ∀ path : Path, path ∈ tree.dirs → path ∈ after.dirs
  temps : ∀ path : Path, IsTemp path → own ≠ some path →
    after.links[path]? = tree.links[path]? ∧
      ∀ inode : Nat, tree.links[path]? = some inode → after.contents inode = tree.contents inode
  settled : ∀ inode, Settled tree inode →
    Settled after inode ∧ after.contents inode = tree.contents inode
  reads : ∀ digest, after.read (pathFor digest) =
    reading (fun digest => tree.read (pathFor digest)) effect digest

namespace Change

variable {tree after : FileTree}

/-- Doing nothing is a change of nothing. -/
theorem refl (tree : FileTree) (own : Option Path) : Change tree tree own none :=
  ⟨id, fun _ => id, fun _ _ _ => ⟨rfl, fun _ _ => rfl⟩, fun _ settled => ⟨settled, rfl⟩, fun _ => rfl⟩

private theorem of_grown {added : Path → Prop} (grown : FileTree.Grown tree after added)
    (placed : ∀ path : Path, path ≠ [] → added path →
      (∃ algo, path = algoDir algo ∨ path = tmpDir algo) ∨ ∃ digest, path = shardDir digest)
    (own : Option Path) : Change tree after own none := by
  refine ⟨fun layout => ⟨?_, ?_⟩, ?_, ?_, ?_, ?_⟩
  · rw [grown.links]
    exact layout.files
  · intro path made
    rcases (grown.dirs path).mp made with before | ⟨proper, new⟩
    · exact layout.dirs path before
    · exact placed path proper new
  · intro path made
    exact (grown.dirs path).mpr (.inl made)
  · intro path _ _
    rw [grown.links, grown.contents]
    exact ⟨rfl, fun _ _ => rfl⟩
  · intro inode settled
    rw [Settled, grown.links, grown.next, grown.contents]
    exact ⟨settled, rfl⟩
  · intro digest
    rw [FileTree.read, grown.links, grown.contents]
    rfl

private theorem of_contents {tmp : Path} {inode : Nat} {bytes : Bytes} (temp : IsTemp tmp)
    (own : tree.links[tmp]? = some inode ∨ tree.next ≤ inode) (dirs : after.dirs = tree.dirs) (links : ∀ path : Path,
      after.links[path]? = if tmp = path then some inode else tree.links[path]?) (next : tree.next ≤ after.next)
    (written : after.contents = Function.update tree.contents inode bytes) : Change tree after (some tmp) none := by
  -- The file is no other put's, and it is not settled.
  have others {path : Path} {other : Nat} (there : tree.links[path]? = some other)
      (different : tmp ≠ path) : after.contents other = tree.contents other := by
    rw [written, Function.update_of_ne]
    intro equal
    rw [equal] at there
    rcases own with linked | new
    · exact different (tree.linked_once _ _ _ linked there)
    · have old := tree.linked_lt _ _ there
      omega
  have unsettled {other : Nat} (settled : Settled tree other) : other ≠ inode := by
    intro equal
    rw [equal] at settled
    rcases own with linked | new
    · exact settled.2 tmp temp linked
    · have old := settled.1
      omega
  have blob (digest : Digest) : tmp ≠ pathFor digest := by
    intro equal
    exact not_isTemp_pathFor digest (equal ▸ temp)
  refine ⟨fun layout => ⟨?_, ?_⟩, ?_, ?_, ?_, ?_⟩
  · intro path other there
    rw [links] at there
    split at there
    · rename_i here
      exact .inr (here ▸ temp)
    · exact layout.files path other there
  · rw [dirs]
    exact layout.dirs
  · rw [dirs]
    exact fun _ => id
  · intro path _ notOwn
    have different : tmp ≠ path := fun equal => notOwn (congrArg some equal)
    rw [links, if_neg different]
    exact ⟨rfl, fun other there => others there different⟩
  · intro other settled
    have different := unsettled settled
    refine ⟨⟨Nat.lt_of_lt_of_le settled.1 next, fun path isTemp there => ?_⟩, ?_⟩
    · rw [links] at there
      split at there
      · exact different (Option.some.inj there).symm
      · exact settled.2 path isTemp there
    · rw [written, Function.update_of_ne different]
  · intro digest
    rw [FileTree.read, links, if_neg (blob digest)]
    cases there : tree.links[pathFor digest]? with
    | none => simp [reading, FileTree.read, there]
    | some other => simp [reading, FileTree.read, there, others there (blob digest)]

/-- A temporary file that is moved into place stores its contents. -/
theorem of_rename {tmp : Path} {digest : Digest} (temp : IsTemp tmp)
    (moved : tree.rename tmp (pathFor digest) = .ok after) : ∃ inode, tree.links[tmp]? = some inode ∧
      Change tree after (some tmp) (some (digest, some (tree.contents inode))) := by
  obtain ⟨inode, linked, dirs, contents, next, links⟩ := rename_ok moved
  have found (path : Path) : after.links[path]? = if pathFor digest = path then some inode
      else if tmp = path then none else tree.links[path]? := by
    rw [links, ExtTreeMap.getElem?_insert, ExtTreeMap.getElem?_erase]
    simp
  have blob {path : Path} (isTemp : IsTemp path) : pathFor digest ≠ path := by
    intro equal
    exact not_isTemp_pathFor digest (equal ▸ isTemp)
  refine ⟨inode, linked, fun layout => ⟨?_, ?_⟩, ?_, ?_, ?_, ?_⟩
  · intro path other there
    rw [found] at there
    split at there
    · rename_i here
      exact .inl ⟨digest, here.symm⟩
    · split at there
      · cases there
      · exact layout.files path other there
  · rw [dirs]
    exact layout.dirs
  · rw [dirs]
    exact fun _ => id
  · intro path isTemp notOwn
    have different : tmp ≠ path := fun equal => notOwn (congrArg some equal)
    rw [found, if_neg (blob isTemp), if_neg different, contents]
    exact ⟨rfl, fun _ _ => rfl⟩
  · intro other settled
    rw [contents]
    refine ⟨⟨by rw [next]; exact settled.1, fun path isTemp there => ?_⟩, rfl⟩
    rw [found, if_neg (blob isTemp)] at there
    split at there
    · cases there
    · exact settled.2 path isTemp there
  · intro other
    rw [FileTree.read, found, contents, reading]
    by_cases same : digest = other
    · rw [if_pos (congrArg pathFor same), if_pos same]
      rfl
    · have different : tmp ≠ pathFor other := fun equal => not_isTemp_pathFor other (equal ▸ temp)
      rw [if_neg (fun equal => same (pathFor_injective equal)), if_neg different, if_neg same]
      rfl

private theorem of_remove {path : Path} (removed : tree.removeFile path = .ok after) {own : Option Path}
    {effect : Option (Digest × Option Bytes)} (mine : IsTemp path → own = some path)
    (seen : ∀ digest, reading (fun digest => tree.read (pathFor digest)) effect digest =
      if path = pathFor digest then none else tree.read (pathFor digest)) : Change tree after own effect := by
  obtain ⟨dirs, contents, next, links⟩ := removeFile_ok removed
  have found (other : Path) : after.links[other]? =
      if path = other then none else tree.links[other]? := by
    rw [links, ExtTreeMap.getElem?_erase]
    simp
  refine ⟨fun layout => ⟨?_, ?_⟩, ?_, ?_, ?_, ?_⟩
  · intro other inode there
    rw [found] at there
    split at there
    · cases there
    · exact layout.files other inode there
  · rw [dirs]
    exact layout.dirs
  · rw [dirs]
    exact fun _ => id
  · intro other isTemp notOwn
    have different : path ≠ other := fun equal => notOwn (equal ▸ mine (equal ▸ isTemp))
    rw [found, if_neg different, contents]
    exact ⟨rfl, fun _ _ => rfl⟩
  · intro inode settled
    rw [contents]
    refine ⟨⟨by rw [next]; exact settled.1, fun other isTemp there => ?_⟩, rfl⟩
    rw [found] at there
    split at there
    · cases there
    · exact settled.2 other isTemp there
  · intro digest
    rw [seen, FileTree.read, found, contents]
    split <;> rfl

end Change

section Sound

variable (hashes : Hashes) (tree : FileTree)

/-- Every blob has the digest it is stored under. -/
def Verified : Prop :=
  ∀ digest bytes, tree.read (pathFor digest) = some bytes → hashes.digestOf digest.algo bytes = digest

/-- There is no blob in an empty root. -/
theorem verified_empty : Verified hashes .empty := by
  intro digest bytes found
  simp [FileTree.empty, FileTree.read] at found

/-- What a put knows from the time on at which it has a temporary file: its bytes are those of its digest, and its
directories are there. -/
structure Prepared (digest : Digest) (bytes : Bytes) (tmp : Path) : Prop where
  computed : hashes.digestOf digest.algo bytes = digest
  shard : shardDir digest ∈ tree.dirs
  tmpDir : tmpDir digest.algo ∈ tree.dirs
  tmp : ∃ name, tmp = FsBlobStore.tmpDir digest.algo ++ [name]

/-- What a put knows at each point. -/
def PutSound (digest : Digest) (bytes : Bytes) : FsPoint → Prop
  | .putTmpDir => hashes.digestOf digest.algo bytes = digest ∧ shardDir digest ∈ tree.dirs
  | .putNumber => hashes.digestOf digest.algo bytes = digest ∧ shardDir digest ∈ tree.dirs ∧
      tmpDir digest.algo ∈ tree.dirs
  | .putCreate tmp => Prepared hashes tree digest bytes tmp
  -- Only the put itself writes to the file.
  | .putWrite tmp inode written => Prepared hashes tree digest bytes tmp ∧
      written < bytes.length ∧ tree.links[tmp]? = some inode ∧ tree.contents inode = bytes.take written
  | .putRename tmp => Prepared hashes tree digest bytes tmp ∧
      ∃ inode, tree.links[tmp]? = some inode ∧ tree.contents inode = bytes
  | .putCleanUp tmp _ => Prepared hashes tree digest bytes tmp
  | _ => True

/-- What a get knows at each point. -/
def GetSound (digest : Digest) : FsPoint → Prop
  | .getRead inode got => Settled tree inode ∧
      hashes.digestOf digest.algo (tree.contents inode) = digest ∧ got <+: tree.contents inode
  | .answered (.bytes bytes) => hashes.digestOf digest.algo bytes = digest
  | _ => True

/-- What a call knows at each point. -/
def Sound (call : BlobCall) (point : FsPoint) : Prop :=
  match call with
  | .put digest bytes => PutSound hashes tree digest bytes point
  | .get digest => GetSound hashes tree digest point
  | _ => True

end Sound

/-- The temporary file a put has at a point. -/
def tmpOf : FsPoint → Option Path
  | .putCreate tmp | .putWrite tmp _ _ | .putRename tmp | .putCleanUp tmp _ => some tmp
  | _ => none

/-- Writing goes on with the same file. -/
theorem tmpOf_afterWrite (bytes : Bytes) (tmp : Path) (inode written : Nat) :
    tmpOf (afterWrite bytes tmp inode written) = some tmp := by
  unfold afterWrite
  split <;> rfl

section Frame

variable {hashes : Hashes} {tree after : FileTree} {own : Option Path}
  {effect : Option (Digest × Option Bytes)}

/-- Directories and names stay as a put knows them. -/
theorem Prepared.frame {digest : Digest} {bytes : Bytes} {tmp : Path}
    (prepared : Prepared hashes tree digest bytes tmp) (change : Change tree after own effect) :
    Prepared hashes after digest bytes tmp :=
  ⟨prepared.computed, change.dirs _ prepared.shard, change.dirs _ prepared.tmpDir, prepared.tmp⟩

/-- The temporary file of a prepared put is one. -/
theorem Prepared.isTemp {digest : Digest} {bytes : Bytes} {tmp : Path}
    (prepared : Prepared hashes tree digest bytes tmp) : IsTemp tmp := by
  obtain ⟨name, rfl⟩ := prepared.tmp
  exact ⟨_, _, rfl⟩

/-- What a call knows stays true when another one changes the files, unless they have the same temporary file. -/
theorem Sound.frame {call : BlobCall} {point : FsPoint} (sound : Sound hashes tree call point)
    (change : Change tree after own effect) (apart : ∀ tmp, tmpOf point = some tmp → own ≠ some tmp) :
    Sound hashes after call point := by
  cases call with
  | put digest bytes =>
    cases point with
    | putTmpDir => exact ⟨sound.1, change.dirs _ sound.2⟩
    | putNumber => exact ⟨sound.1, change.dirs _ sound.2.1, change.dirs _ sound.2.2⟩
    | putCreate | putCleanUp => exact Prepared.frame sound change
    | putWrite tmp inode written =>
      obtain ⟨prepared, more, linked, contents⟩ := sound
      obtain ⟨same, kept⟩ := change.temps tmp prepared.isTemp (apart tmp rfl)
      exact ⟨prepared.frame change, more, same.trans linked, (kept inode linked).trans contents⟩
    | putRename tmp =>
      obtain ⟨prepared, inode, linked, contents⟩ := sound
      obtain ⟨same, kept⟩ := change.temps tmp prepared.isTemp (apart tmp rfl)
      exact ⟨prepared.frame change, inode, same.trans linked, (kept inode linked).trans contents⟩
    | _ => trivial
  | get digest =>
    cases point with
    | getRead inode got =>
      obtain ⟨settled, verified, begun⟩ := sound
      obtain ⟨stays, kept⟩ := change.settled inode settled
      refine ⟨stays, ?_, ?_⟩
      · rw [kept]
        exact verified
      · rw [kept]
        exact begun
    | answered answer => cases answer <;> exact sound
    | _ => trivial
  | contains digest | delete digest | list => trivial

end Frame

section Step

/-- What the blobs see of a turn: nothing, a blob that a put stores, or one that a delete removes. -/
inductive Outcome (hashes : Hashes) : BlobCall → FsPoint → Option (Digest × Option Bytes) → Prop
  | unseen (call : BlobCall) (point : FsPoint) : Outcome hashes call point none
  | stored {digest : Digest} {bytes : Bytes} (computed : hashes.digestOf digest.algo bytes = digest) :
    Outcome hashes (.put digest bytes) (.answered .done) (some (digest, some bytes))
  | removed (digest : Digest) :
    Outcome hashes (.delete digest) (.answered .done) (some (digest, none))

/-- A turn is sound when it changes no work of others, and knows what it goes on with. -/
def SoundTurn (hashes : Hashes) (call : BlobCall) (world : FsWorld) (own : Option Path)
    (turned : FsWorld × FsPoint) : Prop :=
  ∃ effect, Change world.tree turned.1.tree own effect ∧ Sound hashes turned.1.tree call turned.2 ∧
    Outcome hashes call turned.2 effect

variable {hashes : Hashes} {world : FsWorld} {event : FsEvent} {own : Option Path}

variable {call : BlobCall} {point : FsPoint} {path : Path} {after tree : FileTree} {digest : Digest} {bytes : Bytes}

/-- A turn that leaves the files is sound if the call knows what it goes on with. -/
theorem SoundTurn.quiet (sound : Sound hashes world.tree call point) :
    SoundTurn hashes call world own (world, point) :=
  ⟨none, .refl _ _, sound, .unseen _ _⟩

/-- The directories on the way to one of two components are the first and itself. -/
theorem way_cases {first second : String} {way : Path} (filled : way ≠ [])
    (short : way <+: [first, second]) : way = [first] ∨ way = [first, second] := by
  cases way with
  | nil => exact absurd rfl filled
  | cons name way =>
    obtain ⟨rfl, further⟩ := List.cons_prefix_cons.mp short
    cases way with
    | nil => exact .inl rfl
    | cons other way =>
      obtain ⟨rfl, last⟩ := List.cons_prefix_cons.mp further
      rw [List.prefix_nil.mp last]
      exact .inr rfl

/-- A directory of the layout below the one of an algorithm. -/
def IsPlace (path : Path) : Prop := (∃ algo, path = tmpDir algo) ∨ ∃ digest, path = shardDir digest

/-- Making such a directory, or only some of those above it, changes no file. -/
theorem change_createDirAll (place : IsPlace path)
    {part : Path} (short : part <+: path) (made : tree.createDirAll part = .ok after) :
    Change tree after own none := by
  refine Change.of_grown (makeDirs_ok made) ?_ own
  intro way _ ⟨_, filled, shorter, same⟩
  rw [List.nil_append] at same
  rw [← same] at filled shorter
  rcases place with ⟨algo, rfl⟩ | ⟨digest, rfl⟩
  · rcases way_cases filled (shorter.trans short) with here | here
    · exact .inl ⟨algo, .inl here⟩
    · exact .inl ⟨algo, .inr here⟩
  · rcases way_cases filled (shorter.trans short) with here | here
    · exact .inl ⟨digest.algo, .inl here⟩
    · exact .inr ⟨digest, here⟩

private theorem mem_dirs_createDirAll (place : IsPlace path)
    (made : tree.createDirAll path = .ok after) : path ∈ after.dirs := by
  have proper : path ≠ [] := by rcases place with ⟨algo, rfl⟩ | ⟨digest, rfl⟩ <;> simp [tmpDir, shardDir, algoDir]
  exact ((makeDirs_ok made).dirs path).mpr (.inr ⟨proper, path, proper, List.prefix_refl _, rfl⟩)

private theorem soundTurn_makeDirectory {next : FsPoint} (place : IsPlace path)
    (onward : ∀ tree, Change world.tree tree own none → path ∈ tree.dirs → Sound hashes tree call next)
    (failing : ∀ tree error, Sound hashes tree call (failedIo error)) :
    SoundTurn hashes call world own (makeDirectory path next event world) := by
  unfold makeDirectory
  split
  · split
    · rename_i tree made
      exact ⟨none, change_createDirAll place (List.take_prefix _ _) made, failing _ _, .unseen _ _⟩
    · exact .quiet (failing _ _)
  · split
    · rename_i tree made
      have change : Change world.tree tree own none := change_createDirAll place (List.prefix_refl _) made
      exact ⟨none, change, onward tree change (mem_dirs_createDirAll place made), .unseen _ _⟩
    · exact .quiet (failing _ _)

private theorem sound_afterWrite {tmp : Path} {inode written : Nat}
    (prepared : Prepared hashes tree digest bytes tmp)
    (linked : tree.links[tmp]? = some inode) (contents : tree.contents inode = bytes.take written) :
    Sound hashes tree (.put digest bytes) (afterWrite bytes tmp inode written) := by
  unfold afterWrite
  split
  · rename_i all
    exact ⟨prepared, inode, linked, contents.trans (List.take_of_length_le all)⟩
  · exact ⟨prepared, by omega, linked, contents⟩

private theorem splice_append {written amount : Nat} (started : written ≤ bytes.length) :
    FileTree.splice (bytes.take written) written ((bytes.drop written).take amount) =
      bytes.take (written + ((bytes.drop written).take amount).length) := by
  have full : (bytes.take written).length = written := by
    rw [List.length_take]
    omega
  generalize chunked : (bytes.drop written).take amount = chunk
  have start : (bytes.take written).take written = bytes.take written := List.take_of_length_le (Nat.le_of_eq full)
  have rest : (bytes.take written).drop (written + chunk.length) = [] := List.drop_of_length_le (by omega)
  have next : bytes.take (written + chunk.length) = bytes.take written ++ chunk := by
    rw [List.take_add, ← chunked, List.length_take, ← List.take_take, List.take_length]
  rw [FileTree.splice, start, rest, full, Nat.sub_self, List.replicate_zero, List.append_nil, List.append_nil, next]

private theorem soundTurn_put (sound : PutSound hashes world.tree digest bytes point) :
    SoundTurn hashes (.put digest bytes) world (tmpOf point) (put hashes digest bytes event world point) := by
  cases point with
  | ready =>
    simp only [put]
    split
    · exact .quiet trivial
    · rename_i computed
      refine soundTurn_makeDirectory (.inr ⟨digest, rfl⟩) (fun tree _ made => ?_) fun _ _ => trivial
      exact ⟨not_not.mp computed, made⟩
  | putTmpDir =>
    refine soundTurn_makeDirectory (.inl ⟨digest.algo, rfl⟩) (fun tree change made => ?_) fun _ _ => trivial
    exact ⟨sound.1, change.dirs _ sound.2, made⟩
  | putNumber => exact ⟨none, .refl _ _, ⟨sound.1, sound.2.1, sound.2.2, _, rfl⟩, .unseen _ _⟩
  | putCreate tmp =>
    simp only [put]
    split
    · exact .quiet trivial
    · split
      · exact .quiet trivial
      · rename_i tree inode created
        obtain ⟨dirs, contents, links, own, next⟩ := create_ok created
        have change : Change world.tree tree (some tmp) none :=
          .of_contents (Prepared.isTemp sound) (own.imp_right fun new => new.2.ge) dirs links next contents
        refine ⟨none, change, ?_, .unseen _ _⟩
        refine sound_afterWrite (Prepared.frame sound change) ?_ ?_
        · rw [links, if_pos rfl]
        · rw [contents, Function.update_self]
          rfl
  | putWrite tmp inode written =>
    obtain ⟨prepared, more, linked, contents⟩ := sound
    simp only [put]
    split
    · exact .quiet trivial
    · have change : Change world.tree (world.tree.writeAt inode written
          ((bytes.drop written).take (event.amount + 1))) (some tmp) none := by
        refine .of_contents prepared.isTemp (.inl linked) rfl (fun path => ?_) (Nat.le_refl _) rfl
        split
        · rename_i here
          rw [← here]
          exact linked
        · rfl
      refine ⟨none, change, sound_afterWrite (prepared.frame change) linked ?_, .unseen _ _⟩
      simp only [FileTree.writeAt, Function.update_self, contents]
      exact splice_append (Nat.le_of_lt more)
  | putRename tmp =>
    obtain ⟨prepared, inode, linked, contents⟩ := sound
    simp only [put]
    split
    · exact .quiet prepared
    · split
      · exact .quiet prepared
      · rename_i tree moved
        -- All bytes were written, so that they are what is moved into place.
        obtain ⟨other, there, change⟩ := Change.of_rename prepared.isTemp moved
        rw [linked] at there
        cases there
        rw [contents] at change
        exact ⟨_, change, trivial, .stored prepared.computed⟩
  | putCleanUp tmp error =>
    simp only [put]
    split
    · exact .quiet trivial
    · split
      · exact .quiet trivial
      · rename_i tree removed
        refine ⟨none, .of_remove removed (fun _ => rfl) fun other => ?_, trivial, .unseen _ _⟩
        have different : tmp ≠ pathFor other := by
          intro equal
          exact not_isTemp_pathFor other (equal ▸ Prepared.isTemp sound)
        rw [if_neg different]
        rfl
  | putIsFile error =>
    simp only [put]
    split <;> exact .quiet trivial
  | _ => exact .quiet trivial

private theorem sound_getFailed (tree : FileTree) (digest : Digest) (error : IoError) :
    Sound hashes tree (.get digest) (getFailed digest error) := by
  unfold getFailed
  split <;> trivial

/-- When nothing more is read of a file all of it has been read. -/
theorem eq_of_readAt {inode amount : Nat} {got : Bytes} (begun : got <+: tree.contents inode)
    (ended : (tree.readAt inode got.length (amount + 1)).isEmpty = true) : got = tree.contents inode := by
  obtain ⟨rest, joined⟩ := begun
  rw [FileTree.readAt, ← joined, List.drop_left] at ended
  cases rest with
  | nil => rw [← joined, List.append_nil]
  | cons first rest => cases ended

private theorem soundTurn_get (verified : Verified hashes world.tree)
    (sound : GetSound hashes world.tree digest point) :
    SoundTurn hashes (.get digest) world (tmpOf point) (get digest event world point) := by
  cases point with
  | ready =>
    simp only [get]
    split
    · exact .quiet (sound_getFailed _ _ _)
    · split
      · exact .quiet (sound_getFailed _ _ _)
      · rename_i inode opened
        have linked : world.tree.links[pathFor digest]? = some inode := by
          unfold FileTree.openRead at opened
          split at opened
          · rename_i found
            cases opened
            exact found
          · split at opened <;> cases opened
        refine .quiet ⟨settled_of_linked linked, ?_, List.nil_prefix⟩
        exact verified digest _ (by rw [FileTree.read, linked, Option.map_some])
  | getRead inode got =>
    obtain ⟨settled, right, begun⟩ := sound
    simp only [get]
    split
    · exact .quiet (sound_getFailed _ _ _)
    · split
      · rename_i ended
        refine .quiet ?_
        change hashes.digestOf digest.algo got = digest
        rw [eq_of_readAt begun ended]
        exact right
      · refine .quiet ⟨settled, right, ?_⟩
        obtain ⟨rest, joined⟩ := begun
        refine ⟨rest.drop (event.amount + 1), ?_⟩
        rw [FileTree.readAt, ← joined, List.drop_left, List.append_assoc, List.take_append_drop]
  | answered answer => exact .quiet sound
  | _ => exact .quiet trivial

private theorem soundTurn_delete (digest : Digest) (point : FsPoint) :
    SoundTurn hashes (.delete digest) world (tmpOf point) (delete digest event world point) := by
  cases point with
  | ready =>
    simp only [delete]
    split
    · split <;> exact .quiet trivial
    · split
      · rename_i tree removed
        refine ⟨_, .of_remove removed (fun isTemp => absurd isTemp (not_isTemp_pathFor digest))
          fun other => ?_, trivial, .removed digest⟩
        rw [reading]
        simp only [pathFor_injective.eq_iff]
      · split <;> exact .quiet trivial
  | _ => exact .quiet trivial

/-- A get leaves the files and the counter. -/
theorem get_fst (digest : Digest) (event : FsEvent) (world : FsWorld) (point : FsPoint) :
    (get digest event world point).1 = world := by
  fun_cases get digest event world point <;> rfl

/-- A lookup leaves the files. -/
theorem contains_fst (digest : Digest) (point : FsPoint) : (contains digest event world point).1 = world := by
  fun_cases contains digest event world point <;> rfl

/-- A listing leaves the files. -/
theorem list_fst (point : FsPoint) : (list event world point).1 = world := by
  fun_cases list event world point <;> rfl

/-- All that a turn of any call can do. -/
theorem soundTurn_step (event : FsEvent)
    (verified : Verified hashes world.tree) (sound : Sound hashes world.tree call point) :
    SoundTurn hashes call world (tmpOf point) (step hashes call event world point) := by
  cases call with
  | put digest bytes => exact soundTurn_put sound
  | get digest => exact soundTurn_get verified sound
  | delete digest => exact soundTurn_delete digest point
  | contains digest =>
    refine ⟨none, ?_, trivial, .unseen _ _⟩
    rw [step, contains_fst]
    exact .refl _ _
  | list =>
    refine ⟨none, ?_, trivial, .unseen _ _⟩
    rw [step, list_fst]
    exact .refl _ _

/-- Blobs stay verified, as only verified bytes are stored. -/
theorem Verified.change {effect : Option (Digest × Option Bytes)} (verified : Verified hashes tree)
    (change : Change tree after own effect) (outcome : Outcome hashes call point effect) :
    Verified hashes after := by
  intro digest bytes found
  rw [change.reads] at found
  cases outcome with
  | unseen => exact verified digest bytes found
  | stored computed =>
    simp only [reading] at found
    split at found
    · rename_i same
      cases found
      rw [← same]
      exact computed
    · exact verified digest bytes found
  | removed =>
    simp only [reading] at found
    split at found
    · cases found
    · exact verified digest bytes found

end Step

end FsBlobStore

end FerroProtocols.BlobStore
