import FerroProtocols.BlobStore.FsSteps
import FerroProtocols.Lib.Interleaving
import FerroProtocols.Lib.Runs

/-!
Any number of calls on one root, in any interleaving of their turns, with failures, crashes and restarts.
-/

namespace FerroProtocols.BlobStore

open Files Std

variable {ι : Type}

/-- What happens next: a call takes a turn, or the process ends and another one begins. -/
inductive FsAction (ι : Type) where
  | turn (thread : ι) (event : FsEvent)
  -- The new process may have the number of an earlier one.
  | restart (pid : Nat)

/-- A call that was in flight when the process ended is never answered. -/
def FsPoint.kill : FsPoint → FsPoint
  | .ready => .ready
  | .answered answer => .answered answer
  | _ => .killed

/-- A call has begun, and has not been answered. -/
def FsPoint.InFlight : FsPoint → Prop
  | .ready | .answered _ | .killed => False
  | _ => True

/-- The files and the process, and the points of all calls. -/
abbrev FsState (ι : Type) := Interleaving.State ι FsWorld FsPoint

namespace FsBlobStore

variable [DecidableEq ι] (hashes : Hashes) (calls : ι → BlobCall)

/-- The turns of the calls. -/
def program : Interleaving.Program ι FsWorld FsPoint FsEvent :=
  fun thread => step hashes (calls thread)

/-- The state after an action. -/
def act (state : FsState ι) : FsAction ι → FsState ι
  | .turn thread event => Interleaving.turn (program hashes calls) state (thread, event)
  | .restart pid =>
    ⟨{ state.shared with pid := pid, tmpSeq := 0 }, fun thread => (state.points thread).kill⟩

/-- An empty root, and calls that have not begun. -/
def start (pid : Nat) : FsState ι := ⟨⟨.empty, pid, 0⟩, fun _ => .ready⟩

/-- The state after some actions on an empty root. -/
def run (pid : Nat) (actions : List (FsAction ι)) : FsState ι :=
  actions.foldl (act hashes calls) (start pid)

/-- Actions after others go on from where those have led. -/
theorem run_append (pid : Nat) (earlier later : List (FsAction ι)) : run hashes calls pid (earlier ++ later) =
      later.foldl (act hashes calls) (run hashes calls pid earlier) := List.foldl_append

/-- No number is taken twice in the life of a process. -/
def Numbered (state : FsState ι) (action : FsAction ι) : Prop :=
  (act hashes calls state action).shared.tmpSeq ≤ tmpSeqModulus

/-- Whether all numbers differ is seen from the counter. -/
instance instDecidableNumbered (state : FsState ι) (action : FsAction ι) :
    Decidable (Numbered hashes calls state action) :=
  inferInstanceAs (Decidable ((act hashes calls state action).shared.tmpSeq ≤ tmpSeqModulus))

private theorem act_points_self (state : FsState ι) (thread : ι) (event : FsEvent) :
    (act hashes calls state (.turn thread event)).points thread =
      (step hashes (calls thread) event state.shared (state.points thread)).2 := if_pos rfl

private theorem act_points_of_ne (state : FsState ι) {thread other : ι} (event : FsEvent)
    (different : other ≠ thread) :
    (act hashes calls state (.turn thread event)).points other = state.points other :=
  if_neg different

section Numbers

/-- A turn goes on with the temporary file of the call, or with a new one under the next number. -/
inductive Numbering (world after : FsWorld) (point next : FsPoint) : Prop
  | kept (counted : after.tmpSeq = world.tmpSeq)
    (same : ∀ tmp, tmpOf next = some tmp → tmpOf point = some tmp)
  | taken (digest : Digest) (counted : after.tmpSeq = world.tmpSeq + 1)
    (own : tmpOf next = some (tmpPath digest world.pid (world.tmpSeq % tmpSeqModulus)))

variable {world : FsWorld} {point : FsPoint} {event : FsEvent} {tmp : Path}

/-- A turn to a point without a temporary file takes no number. -/
theorem Numbering.idle {after : FsWorld} {next : FsPoint} (counted : after.tmpSeq = world.tmpSeq)
    (none : tmpOf next = none) : Numbering world after point next := by
  refine .kept counted ?_
  intro tmp own
  rw [none] at own
  cases own

private theorem makeDirectory_numbering {path : Path} {next : FsPoint} (point : FsPoint) (none : tmpOf next = none) :
    (makeDirectory path next event world).1.pid = world.pid ∧
      Numbering world (makeDirectory path next event world).1 point (makeDirectory path next event world).2 := by
  unfold makeDirectory
  split
  · split <;> exact ⟨rfl, .idle rfl rfl⟩
  · split
    · exact ⟨rfl, .kept rfl fun tmp own => by rw [none] at own; cases own⟩
    · exact ⟨rfl, .idle rfl rfl⟩

private theorem put_numbering (hashes : Hashes) (digest : Digest) (bytes : Bytes) (event : FsEvent) (world : FsWorld)
    (point : FsPoint) : (put hashes digest bytes event world point).1.pid = world.pid ∧
      Numbering world (put hashes digest bytes event world point).1 point
        (put hashes digest bytes event world point).2 := by
  cases point with
  | ready =>
    simp only [put]
    split
    · exact ⟨rfl, .idle rfl rfl⟩
    · exact makeDirectory_numbering _ rfl
  | putTmpDir => exact makeDirectory_numbering _ rfl
  | putNumber => exact ⟨rfl, .taken digest rfl rfl⟩
  | putCreate tmp =>
    simp only [put]
    split
    · exact ⟨rfl, .idle rfl rfl⟩
    · split
      · exact ⟨rfl, .idle rfl rfl⟩
      · exact ⟨rfl, .kept rfl fun other own => (tmpOf_afterWrite ..).symm.trans own⟩
  | putWrite tmp inode written =>
    simp only [put]
    split
    · exact ⟨rfl, .idle rfl rfl⟩
    · exact ⟨rfl, .kept rfl fun other own => (tmpOf_afterWrite ..).symm.trans own⟩
  | putRename tmp =>
    simp only [put]
    split
    · exact ⟨rfl, .kept rfl fun _ => id⟩
    · split
      · exact ⟨rfl, .kept rfl fun _ => id⟩
      · exact ⟨rfl, .idle rfl rfl⟩
  | putCleanUp tmp error =>
    simp only [put]
    split
    · exact ⟨rfl, .idle rfl rfl⟩
    · split <;> exact ⟨rfl, .idle rfl rfl⟩
  | putIsFile error =>
    simp only [put]
    split <;> exact ⟨rfl, .idle rfl rfl⟩
  | _ => exact ⟨rfl, .kept rfl fun _ => id⟩

private theorem tmpOf_get {digest : Digest}
    (own : tmpOf (get digest event world point).2 = some tmp) : tmpOf point = some tmp := by
  have failed (error : IoError) : tmpOf (getFailed digest error) ≠ some tmp := by
    unfold getFailed
    split <;> exact nofun
  cases point with
  | ready =>
    simp only [get] at own
    split at own
    · exact absurd own (failed _)
    · split at own
      · exact absurd own (failed _)
      · cases own
  | getRead inode got =>
    simp only [get] at own
    split at own
    · exact absurd own (failed _)
    · split at own <;> cases own
  | _ => exact own

private theorem tmpOf_contains {digest : Digest} (own : tmpOf (contains digest event world point).2 = some tmp) :
    tmpOf point = some tmp := by
  cases point with
  | ready =>
    simp only [contains] at own
    split at own
    · split at own <;> cases own
    · cases own
  | _ => exact own

private theorem delete_numbering (digest : Digest) (event : FsEvent) (world : FsWorld) (point : FsPoint) :
    (delete digest event world point).1.pid = world.pid ∧ Numbering world (delete digest event world point).1 point
        (delete digest event world point).2 := by
  cases point with
  | ready =>
    simp only [delete]
    split
    · split <;> exact ⟨rfl, .idle rfl rfl⟩
    · split
      · exact ⟨rfl, .idle rfl rfl⟩
      · split <;> exact ⟨rfl, .idle rfl rfl⟩
  | _ => exact ⟨rfl, .kept rfl fun _ => id⟩

private theorem tmpOf_list (own : tmpOf (list event world point).2 = some tmp) : tmpOf point = some tmp := by
  have next (algos : List DigestAlgo) (out : List Digest) : tmpOf (nextAlgo algos out) ≠ some tmp := by
    cases algos <;> exact nofun
  cases point with
  | ready => cases own
  | listExists algos out =>
    cases algos with
    | nil => cases own
    | cons algo later =>
      simp only [list] at own
      split at own
      · cases own
      · exact absurd own (next _ _)
  | listOpen | listIsDir | listOpenShard =>
    simp only [list] at own
    split at own <;> cases own
  | listNext scan =>
    simp only [list] at own
    split at own
    · cases own
    · split at own
      · cases own
      · split at own
        · exact absurd own (next _ _)
        · split at own <;> cases own
  | listNextFile scan name files =>
    simp only [list] at own
    split at own
    · cases own
    · split at own
      · cases own
      · split at own <;> cases own
  | _ => exact own

private theorem step_numbering (hashes : Hashes) (call : BlobCall) (event : FsEvent) (world : FsWorld)
    (point : FsPoint) :
    (step hashes call event world point).1.pid = world.pid ∧
      Numbering world (step hashes call event world point).1 point (step hashes call event world point).2 := by
  cases call with
  | put digest bytes => exact put_numbering hashes digest bytes event world point
  | get digest =>
    have same := get_fst digest event world point
    exact ⟨congrArg FsWorld.pid same, .kept (congrArg FsWorld.tmpSeq same) fun _ => tmpOf_get⟩
  | contains digest =>
    have same : (contains digest event world point).1 = world := contains_fst digest point
    exact ⟨congrArg FsWorld.pid same, .kept (congrArg FsWorld.tmpSeq same) fun _ => tmpOf_contains⟩
  | delete digest => exact delete_numbering digest event world point
  | list =>
    have same : (list event world point).1 = world := list_fst point
    exact ⟨congrArg FsWorld.pid same, .kept (congrArg FsWorld.tmpSeq same) fun _ => tmpOf_list⟩

end Numbers

/-- What holds at every time: blobs are verified, every call is right about its files, and no two puts have the same
temporary file. -/
structure Consistent (state : FsState ι) : Prop where
  layout : Layout state.shared.tree
  verified : Verified hashes state.shared.tree
  sound : ∀ thread, Sound hashes state.shared.tree (calls thread) (state.points thread)
  numbered : ∀ thread tmp, tmpOf (state.points thread) = some tmp → ∃ digest number,
    number < state.shared.tmpSeq ∧ tmp = tmpPath digest state.shared.pid (number % tmpSeqModulus)
  apart : ∀ left right tmp, tmpOf (state.points left) = some tmp →
    tmpOf (state.points right) = some tmp → left = right

variable {hashes calls}

omit [DecidableEq ι] in
private theorem consistent_start (pid : Nat) : Consistent hashes calls (start pid : FsState ι) where
  layout := layout_empty
  verified := verified_empty hashes
  sound := fun thread => by
    cases called : calls thread <;> exact trivial
  numbered := nofun
  apart := nofun

variable {state : FsState ι}

/-- A restart forgets what calls know, and leaves the files. -/
theorem Consistent.restart (consistent : Consistent hashes calls state)
    (pid : Nat) : Consistent hashes calls (act hashes calls state (.restart pid)) := by
  have none (thread : ι) : tmpOf (state.points thread).kill = none := by cases state.points thread <;> rfl
  refine ⟨consistent.layout, consistent.verified, fun thread => ?_, ?_, ?_⟩
  · have before := consistent.sound thread
    simp only [act]
    -- Only an answer outlives the process.
    cases called : calls thread with
    | get digest =>
      rw [called] at before
      cases reached : state.points thread with
      | answered answer =>
        rw [reached] at before
        exact before
      | _ => trivial
    | put digest bytes => cases state.points thread <;> trivial
    | _ => trivial
  · intro thread tmp own
    rw [act, none] at own
    cases own
  · intro left right tmp own
    rw [act, none] at own
    cases own

/-- A turn keeps all calls right about their files as long as no number comes again. -/
theorem Consistent.turn (consistent : Consistent hashes calls state) (thread : ι)
    (event : FsEvent) (numbered : Numbered hashes calls state (.turn thread event)) :
    Consistent hashes calls (act hashes calls state (.turn thread event)) := by
  obtain ⟨effect, change, sound, outcome⟩ := soundTurn_step event consistent.verified (consistent.sound thread)
  obtain ⟨pid, numbering⟩ := step_numbering hashes (calls thread) event state.shared (state.points thread)
  have self := act_points_self hashes calls state thread event
  have others {other : ι} (different : other ≠ thread) := act_points_of_ne hashes calls state event different
  have shared : (act hashes calls state (.turn thread event)).shared =
      (step hashes (calls thread) event state.shared (state.points thread)).1 := rfl
  unfold Numbered at numbered
  generalize act hashes calls state (.turn thread event) = after at self others shared numbered ⊢
  rw [← shared] at change sound pid numbering
  rw [← self] at sound outcome numbering
  refine ⟨change.layout consistent.layout, consistent.verified.change change outcome, ?_, ?_, ?_⟩
  · intro other
    by_cases same : other = thread
    · rw [same]
      exact sound
    · rw [others same]
      refine (consistent.sound other).frame change fun tmp own mine => ?_
      exact same (consistent.apart other thread tmp own mine)
  · intro other tmp own
    rw [pid]
    by_cases same : other = thread
    · rw [same] at own
      cases numbering with
      | kept counted before =>
        rw [counted]
        exact consistent.numbered thread tmp (before tmp own)
      | taken digest counted new =>
        rw [new] at own
        cases own
        exact ⟨digest, state.shared.tmpSeq, by omega, rfl⟩
    · rw [others same] at own
      obtain ⟨digest, number, below, named⟩ := consistent.numbered other tmp own
      refine ⟨digest, number, ?_, named⟩
      cases numbering <;> omega
  · -- A new number is higher than those of all temporary files that are in use.
    have unshared {other : ι} {tmp : Path} (different : other ≠ thread)
        (theirs : tmpOf (state.points other) = some tmp) (own : tmpOf (after.points thread) = some tmp) :
        False := by
      cases numbering with
      | kept counted before => exact different (consistent.apart other thread tmp theirs (before tmp own))
      | taken digest counted new =>
        rw [new] at own
        cases own
        obtain ⟨digest', number, below, named⟩ := consistent.numbered other _ theirs
        have same := number_of_tmpPath named
        rw [Nat.mod_eq_of_lt (by omega), Nat.mod_eq_of_lt (by omega)] at same
        omega
    intro left right tmp onLeft onRight
    by_cases leftSelf : left = thread
    · by_cases rightSelf : right = thread
      · rw [leftSelf, rightSelf]
      · rw [leftSelf] at onLeft
        rw [others rightSelf] at onRight
        exact (unshared rightSelf onRight onLeft).elim
    · rw [others leftSelf] at onLeft
      by_cases rightSelf : right = thread
      · rw [rightSelf] at onRight
        exact (unshared leftSelf onLeft onRight).elim
      · rw [others rightSelf] at onRight
        exact consistent.apart left right tmp onLeft onRight

section Listing

/-- The digest that a file of a shard stands for, if its name is the rest of one. -/
def fileDigest (algo : DigestAlgo) (name file : String) : Option Digest :=
  (Digest.new algo (name ++ file)).toOption

/-- The digests a listing has found so far, and those of the files it is going to look at. -/
def noted : FsPoint → List Digest
  | .listExists _ out | .listOpen _ _ out | .answered (.digests out) => out
  | .listNext scan | .listIsDir scan _ | .listOpenShard scan _ => scan.out
  | .listNextFile scan name files =>
    scan.out ++ files.pending.filterMap (fileDigest scan.algo name)
  | _ => []

/-- A listing reads only directories with the names of shards. -/
def InShard : FsPoint → Prop
  | .listIsDir _ name | .listOpenShard _ name | .listNextFile _ name _ => isShardName name = true
  | _ => True

variable {digest : Digest}

private theorem read_of_children {tree : FileTree} (layout : Layout tree) {algo : DigestAlgo}
    {name file : String} (shards : isShardName name = true)
    (inside : file ∈ tree.children (algoDir algo ++ [name])) (named : fileDigest algo name file = some digest) :
    (tree.read (pathFor digest)).isSome = true := by
  obtain ⟨other, _, linked, made⟩ := blob_of_child layout shards inside
  rw [fileDigest, made] at named
  cases named
  rw [FileTree.read, Option.isSome_map]
  exact (ExtTreeMap.contains_eq_isSome_getElem?).symm.trans linked

private theorem noted_nextAlgo (algos : List DigestAlgo) (out : List Digest) : noted (nextAlgo algos out) = out := by
  cases algos <;> rfl

private theorem noted_list {event : FsEvent} {world : FsWorld} {point : FsPoint} (layout : Layout world.tree)
    (inShard : InShard point) (member : digest ∈ noted (list event world point).2) :
    digest ∈ noted point ∨ point.InFlight ∧ (world.tree.read (pathFor digest)).isSome = true := by
  cases point with
  | ready => exact .inl member
  | listExists algos out =>
    cases algos with
    | nil => exact .inl member
    | cons algo later =>
      simp only [list] at member
      split at member
      · exact .inl member
      · rw [noted_nextAlgo] at member
        exact .inl member
  | listOpen algo later out =>
    simp only [list] at member
    split at member
    · cases member
    · exact .inl member
  | listNext scan =>
    simp only [list] at member
    split at member
    · exact .inl member
    · split at member
      · cases member
      · split at member
        · rw [noted_nextAlgo] at member
          exact .inl member
        · split at member <;> exact .inl member
  | listIsDir scan name =>
    simp only [list] at member
    split at member <;> exact .inl member
  | listOpenShard scan name =>
    simp only [list] at member
    split at member
    · cases member
    · rename_i files opened
      rw [readDir_ok opened] at member
      rcases List.mem_append.mp member with found | coming
      · exact .inl found
      · obtain ⟨file, pending, named⟩ := List.mem_filterMap.mp coming
        exact .inr ⟨trivial, read_of_children layout inShard (DirStream.mem_start.mp pending) named⟩
  | listNextFile scan name files =>
    simp only [list] at member
    split at member
    · rcases List.mem_append.mp member with found | coming
      · exact .inl (List.mem_append_left _ found)
      · obtain ⟨file, pending, named⟩ := List.mem_filterMap.mp coming
        rcases DirStream.mem_of_mem_refresh pending with before | there
        · exact .inl (List.mem_append_right _ (List.mem_filterMap.mpr ⟨file, before, named⟩))
        · exact .inr ⟨trivial, read_of_children layout inShard there named⟩
    · split at member
      · cases member
      · split at member
        · exact .inl (List.mem_append_left _ member)
        · -- The file that is looked at moves from those to come to those that were found.
          rename_i file rest waiting
          refine .inl ?_
          cases made : Digest.new scan.algo (name ++ file) with
          | error error =>
            have unnamed : fileDigest scan.algo name file = none := by rw [fileDigest, made]; rfl
            simpa [noted, waiting, made, unnamed] using member
          | ok found =>
            have named : fileDigest scan.algo name file = some found := by rw [fileDigest, made]; rfl
            simpa [noted, waiting, made, named] using member
  | _ => exact .inl member

private theorem inShard_list {event : FsEvent} {world : FsWorld} {point : FsPoint} (inShard : InShard point) :
    InShard (list event world point).2 := by
  have next (algos : List DigestAlgo) (out : List Digest) : InShard (nextAlgo algos out) := by
    cases algos <;> trivial
  -- A listing goes into a directory only after a look at its name, and leaves it with the next one.
  fun_cases list event world point <;> first
    | trivial
    | exact inShard
    | exact next _ _

variable (hashes calls)

/-- A blob was there at some time while a call was in flight. -/
def SeenDuring (pid : Nat) (actions : List (FsAction ι)) (thread : ι) (digest : Digest) : Prop :=
  ∃ before after, actions = before ++ after ∧ ((run hashes calls pid before).points thread).InFlight ∧
    ((run hashes calls pid before).shared.tree.read (pathFor digest)).isSome = true

variable {hashes calls}

/-- What was seen stays seen when more happens. -/
theorem SeenDuring.later {pid : Nat} {actions : List (FsAction ι)} {thread : ι}
    (seen : SeenDuring hashes calls pid actions thread digest) (action : FsAction ι) :
    SeenDuring hashes calls pid (actions ++ [action]) thread digest := by
  obtain ⟨before, after, joined, inFlight, there⟩ := seen
  exact ⟨before, after ++ [action], by rw [joined, List.append_assoc], inFlight, there⟩

variable (hashes calls) in
/-- What every listing has noted was there while it was in flight. -/
structure Witnessed (pid : Nat) (actions : List (FsAction ι)) (state : FsState ι) : Prop where
  consistent : Consistent hashes calls state
  inShard : ∀ thread, calls thread = .list → InShard (state.points thread)
  seen : ∀ thread, calls thread = .list → ∀ digest ∈ noted (state.points thread),
    SeenDuring hashes calls pid actions thread digest

private theorem noted_kill {point : FsPoint} (member : digest ∈ noted point.kill) : digest ∈ noted point := by
  cases point with
  | answered answer => exact member
  | _ => cases member

variable {actions : List (FsAction ι)}

/-- A turn keeps what listings have noted witnessed: what is new is there right now. -/
theorem Witnessed.turn {pid : Nat} {thread : ι} {event : FsEvent}
    (witnessed : Witnessed hashes calls pid actions (run hashes calls pid actions))
    (numbered : Numbered hashes calls (run hashes calls pid actions) (.turn thread event)) :
    Witnessed hashes calls pid (actions ++ [.turn thread event])
      (act hashes calls (run hashes calls pid actions) (.turn thread event)) := by
  refine ⟨witnessed.consistent.turn thread event numbered, ?_, ?_⟩
  · intro other listing
    by_cases same : other = thread
    · rw [same] at listing ⊢
      rw [act_points_self, listing]
      exact inShard_list (witnessed.inShard thread listing)
    · rw [act_points_of_ne hashes calls _ event same]
      exact witnessed.inShard other listing
  · intro other listing digest member
    by_cases same : other = thread
    · rw [same] at listing member ⊢
      rw [act_points_self, listing] at member
      rcases noted_list witnessed.consistent.layout (witnessed.inShard thread listing) member with
        before | ⟨inFlight, there⟩
      · exact (witnessed.seen thread listing digest before).later _
      · exact ⟨actions, [.turn thread event], rfl, inFlight, there⟩
    · rw [act_points_of_ne hashes calls _ event same] at member
      exact (witnessed.seen other listing digest member).later _

/-- A restart keeps what listings have noted witnessed. -/
theorem Witnessed.restart {pid : Nat}
    (witnessed : Witnessed hashes calls pid actions (run hashes calls pid actions)) (next : Nat) :
    Witnessed hashes calls pid (actions ++ [.restart next])
      (act hashes calls (run hashes calls pid actions) (.restart next)) := by
  refine ⟨witnessed.consistent.restart next, ?_, ?_⟩
  · intro thread listing
    have before := witnessed.inShard thread listing
    simp only [act]
    cases (run hashes calls pid actions).points thread <;> trivial
  · intro thread listing digest member
    exact (witnessed.seen thread listing digest (noted_kill member)).later _

end Listing

/-- A get that succeeds returns bytes with the digest that was asked for, and a listing returns only digests of blobs
that were there while it was in flight, in any interleaving of any calls with failures, crashes and restarts, as long
as no process takes more numbers for its temporary files than there are. -/
theorem served_verified (hashes : Hashes) (calls : ι → BlobCall) (pid : Nat) (actions : List (FsAction ι))
    (numbered : Runs.Along (act hashes calls) (Numbered hashes calls) (start pid) actions) :
    (∀ thread digest bytes, calls thread = .get digest →
      (run hashes calls pid actions).points thread = .answered (.bytes bytes) →
      hashes.digestOf digest.algo bytes = digest) ∧ (∀ thread digests, calls thread = .list →
      (run hashes calls pid actions).points thread = .answered (.digests digests) →
      ∀ digest ∈ digests, SeenDuring hashes calls pid actions thread digest) := by
  -- The invariant speaks of the whole past, as listings have noted what was there earlier.
  have witnessed : Witnessed hashes calls pid actions (run hashes calls pid actions) := by
    refine Runs.Along.history (motive := Witnessed hashes calls pid) ?_ ?_ numbered
    · refine ⟨consistent_start pid, ?_, ?_⟩
      · intro thread _
        trivial
      · intro thread _ digest member
        cases member
    · intro past action before counted
      cases action with
      | turn thread event => exact before.turn counted
      | restart next => exact before.restart next
  constructor
  · intro thread digest bytes called answered
    have sound := witnessed.consistent.sound thread
    rw [called, answered] at sound
    exact sound
  · intro thread digests called answered digest member
    refine witnessed.seen thread called digest ?_
    rw [answered]
    exact member

/-- Whenever the process ends, the disk has nothing but temporary files and blobs with the digests that their
paths name, and no two puts ever write to one temporary file. -/
theorem disk_verified {pid : Nat} {actions : List (FsAction ι)}
    (numbered : Runs.Along (act hashes calls) (Numbered hashes calls) (start pid) actions) :
    let state := run hashes calls pid actions
    Layout state.shared.tree ∧ Verified hashes state.shared.tree ∧ ∀ left right tmp,
      tmpOf (state.points left) = some tmp → tmpOf (state.points right) = some tmp → left = right := by
  have consistent : Consistent hashes calls (run hashes calls pid actions) := by
    refine numbered.invariant ?_ (consistent_start pid)
    intro state action before counted
    cases action with
    | turn thread event => exact before.turn thread event counted
    | restart next => exact before.restart next
  exact ⟨consistent.layout, consistent.verified, consistent.apart⟩

/-- A blob of one byte, under hash functions that tell it from the empty one. -/
def oneByte : Digest := Hashes.table.digestOf .sha256 [1]

/-- Two puts of one blob, a get of it and a listing. -/
def fewCalls : Nat → BlobCall
  | 0 | 1 => .put oneByte [1]
  | 2 => .get oneByte
  | _ => .list

/-- The process ends while the first put writes its temporary file, and another process has the same number. -/
def retried : List (FsAction Nat) :=
  List.replicate 4 (.turn 0 {}) ++ [.restart 7] ++ List.replicate 6 (.turn 1 {}) ++
    List.replicate 3 (.turn 2 {}) ++ List.replicate 11 (.turn 3 {})

/-- The blob is served and listed after the second put, whatever the first one has left behind. -/
theorem served_verified_retried : (run Hashes.table fewCalls 7 retried).points 2 = .answered (.bytes [1]) ∧
      Hashes.table.digestOf oneByte.algo [1] = oneByte ∧
      (run Hashes.table fewCalls 7 retried).points 3 = .answered (.digests [oneByte]) ∧
      SeenDuring Hashes.table fewCalls 7 retried 3 oneByte := by
  obtain ⟨numbered, got, listed⟩ : Runs.Along (act Hashes.table fewCalls) (Numbered Hashes.table fewCalls)
        (start 7) retried ∧
      (run Hashes.table fewCalls 7 retried).points 2 = .answered (.bytes [1]) ∧
      (run Hashes.table fewCalls 7 retried).points 3 = .answered (.digests [oneByte]) := by
    decide +kernel
  obtain ⟨gets, lists⟩ := served_verified Hashes.table fewCalls 7 retried numbered
  exact ⟨got, gets 2 oneByte [1] rfl got, listed, lists 3 [oneByte] rfl listed oneByte (by simp)⟩

/-- So it is after the put that was cut off. -/
theorem disk_verified_retried : Verified Hashes.table (run Hashes.table fewCalls 7 retried).shared.tree :=
  (disk_verified (by decide +kernel)).2.1

section Crowd

/-- All calls put the same blob, except for one that gets it. -/
def crowdCalls (thread : Nat) : BlobCall :=
  if thread = tmpSeqModulus + 1 then .get oneByte else .put oneByte [1]

/-- A put that goes as far as to take a number. -/
def enter (thread : Nat) : List (FsAction Nat) :=
  [.turn thread {}, .turn thread {}, .turn thread {}]

/-- A put that goes as far as to have written its temporary file. -/
def firstPut : List (FsAction Nat) := enter 0 ++ [.turn 0 {}, .turn 0 {}]

/-- Puts that go as far as to take a number, one after the other. -/
def crowd : Nat → List (FsAction Nat)
  | 0 => []
  | count + 1 => crowd count ++ enter (count + 1)

/-- The last put empties the temporary file of the first one, which then moves it into place. -/
def lastPut : List (FsAction Nat) :=
  enter tmpSeqModulus ++ [.turn tmpSeqModulus {}, .turn 0 {}, .turn (tmpSeqModulus + 1) {},
    .turn (tmpSeqModulus + 1) {}]

/-- The files when the first put has written its temporary file. -/
def crowded : FileTree := (run Hashes.table crowdCalls 0 firstPut).shared.tree

private theorem createDirAll_crowded : crowded.createDirAll (shardDir oneByte) = .ok crowded ∧
    crowded.createDirAll (tmpDir oneByte.algo) = .ok crowded := by
  have dirs : crowded.isDir (algoDir .sha256) = true ∧ crowded.isDir (shardDir oneByte) = true ∧
      crowded.isDir (tmpDir .sha256) = true := by
    decide +kernel
  constructor
  · refine FileTree.makeDirs_of_isDir fun way filled short => ?_
    rcases way_cases filled short with rfl | rfl
    · exact dirs.1
    · exact dirs.2.1
  · refine FileTree.makeDirs_of_isDir fun way filled short => ?_
    rcases way_cases filled short with rfl | rfl
    · exact dirs.1
    · exact dirs.2.2

/-- Where the first put is by then. -/
def waiting : FsPoint := .putRename (tmpPath oneByte 0 0)

section Enter

variable {tree : FileTree} (made : tree.createDirAll (shardDir oneByte) = .ok tree ∧
  tree.createDirAll (tmpDir oneByte.algo) = .ok tree) {points : Nat → FsPoint} {thread tmpSeq : Nat}

private theorem act_eq (world : FsWorld) (points : Nat → FsPoint) {call : BlobCall}
    (called : crowdCalls thread = call) {after : FsWorld × FsPoint}
    (does : step Hashes.table call {} world (points thread) = after) :
    act Hashes.table crowdCalls ⟨world, points⟩ (.turn thread {}) =
      ⟨after.1, Function.update points thread after.2⟩ := by
  rw [← does, ← called]
  refine congrArg (Interleaving.State.mk _) (funext fun other => ?_)
  rw [Function.update_apply]
  rfl

include made in
private theorem enter_crowded (putting : crowdCalls thread = .put oneByte [1]) (ready : points thread = .ready) :
    (enter thread).foldl (act Hashes.table crowdCalls) ⟨⟨tree, 0, tmpSeq⟩, points⟩ =
      ⟨⟨tree, 0, tmpSeq + 1⟩, Function.update points thread
        (.putCreate (tmpPath oneByte 0 (tmpSeq % tmpSeqModulus)))⟩ := by
  have computed : ¬ Hashes.table.digestOf oneByte.algo [1] ≠ oneByte := not_not.mpr rfl
  -- Both directories are found, so that the files stay as they are.
  have first : step Hashes.table (.put oneByte [1]) {} ⟨tree, 0, tmpSeq⟩ .ready =
      (⟨tree, 0, tmpSeq⟩, .putTmpDir) := by
    simp [step, put, computed, makeDirectory, made.1]
  have second : step Hashes.table (.put oneByte [1]) {} ⟨tree, 0, tmpSeq⟩ .putTmpDir =
      (⟨tree, 0, tmpSeq⟩, .putNumber) := by
    simp only [step, put, makeDirectory, made.2]
  rw [← ready] at first
  simp only [enter, List.foldl_cons, List.foldl_nil]
  rw [act_eq ⟨tree, 0, tmpSeq⟩ points putting first]
  dsimp only
  rw [act_eq ⟨tree, 0, tmpSeq⟩ _ putting ((congrArg _ (Function.update_self ..)).trans second), Function.update_idem]
  dsimp only
  rw [act_eq ⟨tree, 0, tmpSeq⟩ _ putting ((congrArg _ (Function.update_self ..)).trans rfl), Function.update_idem]
  rfl

end Enter

private theorem run_crowd {count : Nat} (few : count < tmpSeqModulus) :
    ∃ points, run Hashes.table crowdCalls 0 (firstPut ++ crowd count) =
        ⟨⟨crowded, 0, count + 1⟩, points⟩ ∧ points 0 = waiting ∧ ∀ thread, count < thread →
          points thread = .ready := by
  induction count with
  | zero =>
    have evaluated : (run Hashes.table crowdCalls 0 firstPut).shared.pid = 0 ∧
        (run Hashes.table crowdCalls 0 firstPut).shared.tmpSeq = 1 ∧
        (run Hashes.table crowdCalls 0 firstPut).points 0 = waiting := by
      decide +kernel
    refine ⟨(run Hashes.table crowdCalls 0 firstPut).points, ?_, evaluated.2.2, ?_⟩
    · rw [crowd, List.append_nil]
      calc run Hashes.table crowdCalls 0 firstPut
          = ⟨⟨crowded, (run Hashes.table crowdCalls 0 firstPut).shared.pid,
              (run Hashes.table crowdCalls 0 firstPut).shared.tmpSeq⟩,
              (run Hashes.table crowdCalls 0 firstPut).points⟩ := rfl
        _ = ⟨⟨crowded, 0, 0 + 1⟩, (run Hashes.table crowdCalls 0 firstPut).points⟩ := by
            rw [evaluated.1, evaluated.2.1]
    · intro thread later
      have other : thread ≠ 0 := by omega
      simp only [run, firstPut, enter, List.cons_append, List.nil_append, List.foldl_cons, List.foldl_nil]
      rw [act_points_of_ne _ _ _ _ other, act_points_of_ne _ _ _ _ other,
        act_points_of_ne _ _ _ _ other, act_points_of_ne _ _ _ _ other, act_points_of_ne _ _ _ _ other]
      rfl
  | succ count ih =>
    obtain ⟨points, reached, first, ready⟩ := ih (by omega)
    refine ⟨Function.update points (count + 1)
      (.putCreate (tmpPath oneByte 0 ((count + 1) % tmpSeqModulus))), ?_, ?_, ?_⟩
    · rw [crowd, ← List.append_assoc, run_append, reached]
      exact enter_crowded createDirAll_crowded (if_neg (by omega)) (ready (count + 1) (by omega))
    · rw [Function.update_of_ne (by omega)]
      exact first
    · intro thread later
      rw [Function.update_of_ne (by omega)]
      exact ready thread (by omega)

/-- The last put begins when all numbers have been taken, and gets the first one again. -/
def emptied : FsWorld × FsPoint :=
  step Hashes.table (.put oneByte [1]) {} ⟨crowded, 0, tmpSeqModulus + 1⟩
    (.putCreate (tmpPath oneByte 0 0))

/-- The first put moves the file into place that has been emptied. -/
def misplaced : FsWorld × FsPoint :=
  step Hashes.table (.put oneByte [1]) {} emptied.1 waiting

/-- The get opens that file. -/
def opened : FsWorld × FsPoint := step Hashes.table (.get oneByte) {} misplaced.1 .ready

/-- When one put waits while all numbers are taken, another put empties its file, and a get returns no bytes for a
blob that has one. -/
theorem served_unverified : crowdCalls (tmpSeqModulus + 1) = .get oneByte ∧
      (run Hashes.table crowdCalls 0 (firstPut ++ crowd (tmpSeqModulus - 1) ++ lastPut)).points
        (tmpSeqModulus + 1) = .answered (.bytes []) ∧ Hashes.table.digestOf oneByte.algo [] ≠ oneByte := by
  have positive : 0 < tmpSeqModulus := by decide
  have all : tmpSeqModulus - 1 + 1 = tmpSeqModulus := by omega
  have last : crowdCalls tmpSeqModulus = .put oneByte [1] := if_neg (by omega)
  have getter : crowdCalls (tmpSeqModulus + 1) = .get oneByte := if_pos rfl
  obtain ⟨points, reached, first, ready⟩ := @run_crowd (tmpSeqModulus - 1) (by omega)
  rw [all] at reached
  refine ⟨getter, ?_, by decide +kernel⟩
  have evaluated : (step Hashes.table (.get oneByte) {} opened.1 opened.2).2 =
      .answered (.bytes []) := by
    decide +kernel
  rw [run_append, reached, lastPut, List.foldl_append,
    enter_crowded createDirAll_crowded last (ready tmpSeqModulus (by omega)), Nat.mod_self]
  simp only [List.foldl_cons, List.foldl_nil]
  -- The last put empties the file, the first one moves it, and the get reads it.
  have second : Function.update points tmpSeqModulus emptied.2 0 = waiting := by
    rw [Function.update_of_ne (by omega)]
    exact first
  have third : Function.update (Function.update points tmpSeqModulus emptied.2) 0 misplaced.2
      (tmpSeqModulus + 1) = .ready := by
    rw [Function.update_of_ne (by omega), Function.update_of_ne (by omega)]
    exact ready _ (by omega)
  rw [act_eq _ _ last ((congrArg _ (Function.update_self ..)).trans (Eq.refl emptied)),
    Function.update_idem, act_eq _ _ (if_neg (by omega)) ((congrArg _ second).trans (Eq.refl misplaced)),
    act_eq _ _ getter ((congrArg _ third).trans (Eq.refl opened)),
    act_eq _ _ getter ((congrArg _ (Function.update_self ..)).trans rfl)]
  dsimp only
  rw [Function.update_self]
  exact evaluated

end Crowd

end FsBlobStore

end FerroProtocols.BlobStore
