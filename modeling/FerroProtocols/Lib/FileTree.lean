import FerroProtocols.Lib.SparseMap
import Std.Data.ExtTreeSet

/-! Directories and files below a root, and the calls that change them. -/

namespace Files

open Std

/-- A path below the root, by the names of its components. -/
abbrev Path := List String

/-- Why a call fails by itself. -/
inductive Failure where
  | notFound
  | isADirectory
  | notADirectory
  deriving DecidableEq, Repr

/-- Directories and files below a root, which is a directory itself. -/
structure FileTree where
  dirs : ExtTreeSet Path
  links : ExtTreeMap Path Nat
  contents : Nat → List UInt8
  -- The number of the next file that is created.
  next : Nat
  linked_lt : ∀ (path : Path) (inode : Nat), links[path]? = some inode → inode < next
  linked_once : ∀ (left right : Path) (inode : Nat), links[left]? = some inode → links[right]? = some inode →
    left = right
  file_parent : ∀ (path : Path) (inode : Nat), links[path]? = some inode →
    path ≠ [] ∧ (path.dropLast = [] ∨ path.dropLast ∈ dirs)
  dir_parent : ∀ path : Path, path ∈ dirs → path ≠ [] ∧ (path.dropLast = [] ∨ path.dropLast ∈ dirs)
  apart : ∀ path : Path, path ∈ dirs → links[path]? = none

namespace FileTree

/-- A root with nothing below it. -/
def empty : FileTree where
  dirs := ∅
  links := ∅
  contents := fun _ => []
  next := 0
  linked_lt := by simp
  linked_once := by simp
  file_parent := by simp
  dir_parent := by simp
  apart := by simp

/-- A path leads to a directory. -/
def isDir (tree : FileTree) (path : Path) : Bool := path.isEmpty || tree.dirs.contains path

/-- A path leads to a file. -/
def isFile (tree : FileTree) (path : Path) : Bool := tree.links.contains path

/-- What a file has in it. -/
def read (tree : FileTree) (path : Path) : Option (List UInt8) := tree.links[path]?.map tree.contents

variable {path : Path} {tree : FileTree}

/-- The directories are the root and those that were made. -/
theorem isDir_iff : tree.isDir path = true ↔ path = [] ∨ path ∈ tree.dirs := by
  rw [isDir, Bool.or_eq_true, List.isEmpty_iff, ExtTreeSet.contains_iff_mem]

/-- A path leads to a file exactly when it leads to some number. -/
theorem isFile_iff : tree.isFile path = true ↔ ∃ inode, tree.links[path]? = some inode := by
  rw [isFile, ExtTreeMap.contains_eq_isSome_getElem?, Option.isSome_iff_exists]

/-- The names in a directory. -/
def children (tree : FileTree) (path : Path) : List String :=
  (tree.dirs.toList ++ tree.links.keys).filterMap fun other =>
    if other.dropLast = path then other.getLast? else none

/-- The names in a directory are the last components of the paths right below it. -/
theorem mem_children {name : String} : name ∈ tree.children path ↔
      path ++ [name] ∈ tree.dirs ∨ ∃ inode, tree.links[path ++ [name]]? = some inode := by
  have linked (other : Path) : other ∈ tree.links.keys ↔ ∃ inode, tree.links[other]? = some inode := by
    rw [ExtTreeMap.mem_keys, ExtTreeMap.mem_iff_isSome_getElem?, Option.isSome_iff_exists]
  simp only [children, List.mem_filterMap, List.mem_append, ExtTreeSet.mem_toList, linked]
  constructor
  · rintro ⟨other, there, named⟩
    split at named
    · rename_i below
      obtain ⟨_, joined⟩ := List.getLast?_eq_some_iff.mp named
      rw [joined, List.dropLast_concat] at below
      rw [joined, below] at there
      exact there
    · cases named
  · intro there
    exact ⟨path ++ [name], there, by simp⟩

section Dirs

variable {tree : FileTree} {path : Path}

/-- A tree with one more directory. -/
def withDir (tree : FileTree) (path : Path) (proper : path ≠ [])
    (parent : path.dropLast = [] ∨ path.dropLast ∈ tree.dirs) (free : tree.links[path]? = none) :
    FileTree :=
  { tree with
    dirs := tree.dirs.insert path
    file_parent := fun other inode linked =>
      ⟨(tree.file_parent other inode linked).1,
        (tree.file_parent other inode linked).2.imp_right fun inside =>
          ExtTreeSet.mem_insert.mpr (.inr inside)⟩
    dir_parent := fun other member => by
      rcases ExtTreeSet.mem_insert.mp member with same | before
      · cases LawfulEqCmp.eq_of_compare same
        exact ⟨proper, parent.imp_right fun inside => ExtTreeSet.mem_insert.mpr (.inr inside)⟩
      · exact ⟨(tree.dir_parent other before).1, (tree.dir_parent other before).2.imp_right
          fun inside => ExtTreeSet.mem_insert.mpr (.inr inside)⟩
    apart := fun other member => by
      rcases ExtTreeSet.mem_insert.mp member with same | before
      · cases LawfulEqCmp.eq_of_compare same
        exact free
      · exact tree.apart other before }

private theorem ne_nil_of_isDir (noDir : ¬ tree.isDir path = true) : path ≠ [] := by
  rintro rfl
  exact noDir rfl

/-- Make a directory in one that is there. -/
def makeDir (tree : FileTree) (path : Path) : Except Failure FileTree :=
  if here : tree.isDir path = true then .ok tree
  else if free : tree.links[path]? = none then
    if parent : tree.isDir path.dropLast = true then
      .ok (tree.withDir path (ne_nil_of_isDir here) (isDir_iff.mp parent) free)
    else .error .notFound
  else .error .notADirectory

/-- Make the directories along some names, from a directory on. -/
def makeDirs (tree : FileTree) (base : Path) : List String → Except Failure FileTree
  | [] => .ok tree
  | name :: rest =>
    match tree.makeDir (base ++ [name]) with
    | .error failure => .error failure
    | .ok after => after.makeDirs (base ++ [name]) rest

/-- Make a directory and all above it. -/
def createDirAll (tree : FileTree) (path : Path) : Except Failure FileTree := tree.makeDirs [] path

/-- A tree that has further directories, and the same files. -/
structure Grown (tree after : FileTree) (added : Path → Prop) : Prop where
  links : after.links = tree.links
  contents : after.contents = tree.contents
  next : after.next = tree.next
  dirs : ∀ path, path ∈ after.dirs ↔ path ∈ tree.dirs ∨ path ≠ [] ∧ added path

private theorem makeDir_ok {after : FileTree} (made : tree.makeDir path = .ok after) :
    Grown tree after fun other => path = other := by
  unfold makeDir at made
  split at made
  · rename_i here
    cases made
    refine ⟨rfl, rfl, rfl, fun other => ⟨.inl, ?_⟩⟩
    rintro (inside | ⟨proper, rfl⟩)
    · exact inside
    · exact (isDir_iff.mp here).resolve_left proper
  · rename_i missing
    split at made
    · split at made
      · cases made
        refine ⟨rfl, rfl, rfl, fun other => ?_⟩
        simp only [withDir, ExtTreeSet.mem_insert, LawfulEqCmp.compare_eq_iff_eq]
        constructor
        · rintro (rfl | inside)
          · exact .inr ⟨ne_nil_of_isDir missing, rfl⟩
          · exact .inl inside
        · rintro (inside | ⟨_, rfl⟩)
          · exact .inr inside
          · exact .inl rfl
      · cases made
    · cases made

variable {names : List String} {base : Path}

/-- Making directories along names adds those on the way and nothing else. -/
theorem makeDirs_ok {after : FileTree} (made : tree.makeDirs base names = .ok after) :
    Grown tree after fun other => ∃ way, way ≠ [] ∧ way <+: names ∧ other = base ++ way := by
  induction names generalizing tree base with
  | nil =>
    cases made
    refine ⟨rfl, rfl, rfl, fun other => ⟨.inl, ?_⟩⟩
    rintro (inside | ⟨_, way, proper, short, _⟩)
    · exact inside
    · exact absurd (List.prefix_nil.mp short) proper
  | cons name rest ih =>
    rw [makeDirs] at made
    split at made
    · cases made
    · rename_i middle first
      have here := makeDir_ok first
      have later := ih made
      refine ⟨later.links.trans here.links, later.contents.trans here.contents,
        later.next.trans here.next, fun other => ?_⟩
      rw [later.dirs, here.dirs, or_assoc]
      refine or_congr_right ⟨?_, ?_⟩
      · rintro (⟨proper, rfl⟩ | ⟨proper, way, _, short, rfl⟩)
        · exact ⟨proper, [name], by simp, by simp, rfl⟩
        · exact ⟨proper, name :: way, by simp, List.cons_prefix_cons.mpr ⟨rfl, short⟩, by simp⟩
      · rintro ⟨proper, way, filled, short, rfl⟩
        -- The way is the first name alone, or goes on along the others.
        cases way with
        | nil => exact absurd rfl filled
        | cons first way =>
          obtain ⟨rfl, further⟩ := List.cons_prefix_cons.mp short
          cases way with
          | nil => exact .inl ⟨proper, rfl⟩
          | cons second way => exact .inr ⟨proper, second :: way, by simp, further, by simp⟩

/-- Directories that are all there are not made again. -/
theorem makeDirs_of_isDir (there : ∀ way, way ≠ [] → way <+: names → tree.isDir (base ++ way) = true) :
    tree.makeDirs base names = .ok tree := by
  induction names generalizing base with
  | nil => rfl
  | cons name rest ih =>
    have here : tree.isDir (base ++ [name]) = true := there [name] (by simp) (by simp)
    rw [makeDirs, makeDir, dif_pos here]
    refine ih fun way filled short => ?_
    rw [List.append_assoc]
    exact there (name :: way) (by simp) (List.cons_prefix_cons.mpr ⟨rfl, short⟩)

end Dirs

section Calls

/-- A tree in which a path that is no directory leads to a file that no other path leads to. -/
def withLinks (tree : FileTree) (links : ExtTreeMap Path Nat) (contents : Nat → List UInt8)
    (next : Nat) (linked_lt : ∀ (path : Path) (inode : Nat), links[path]? = some inode → inode < next)
    (linked_once : ∀ (left right : Path) (inode : Nat), links[left]? = some inode → links[right]? = some inode →
      left = right)
    (placed : ∀ (path : Path) (inode : Nat), links[path]? = some inode →
      tree.links[path]? ≠ none ∨ tree.isDir path = false ∧ tree.isDir path.dropLast = true) :
    FileTree where
  dirs := tree.dirs
  links := links
  contents := contents
  next := next
  linked_lt := linked_lt
  linked_once := linked_once
  file_parent := fun path inode linked => by
    rcases placed path inode linked with before | ⟨noDir, parent⟩
    · obtain ⟨old, there⟩ := Option.ne_none_iff_exists'.mp before
      exact tree.file_parent path old there
    · exact ⟨ne_nil_of_isDir (ne_true_of_eq_false noDir), isDir_iff.mp parent⟩
  dir_parent := tree.dir_parent
  apart := fun path member => by
    cases linked : links[path]? with
    | none => rfl
    | some inode =>
      rcases placed path inode linked with before | ⟨noDir, _⟩
      · exact absurd (tree.apart path member) before
      · rw [isDir_iff.mpr (.inr member)] at noDir
        cases noDir

variable {tree : FileTree} {path : Path} {inode : Nat}

private theorem insert_linked_lt (tree : FileTree) (path : Path) :
    ∀ (other : Path) (inode : Nat), (tree.links.insert path tree.next)[other]? = some inode →
      inode < tree.next + 1 := by
  intro other inode linked
  rw [ExtTreeMap.getElem?_insert] at linked
  split at linked
  · cases linked
    omega
  · have older := tree.linked_lt other inode linked
    omega

private theorem insert_linked_once (tree : FileTree) (path : Path) :
    ∀ (left right : Path) (inode : Nat), (tree.links.insert path tree.next)[left]? = some inode →
      (tree.links.insert path tree.next)[right]? = some inode → left = right := by
  intro left right inode onLeft onRight
  rw [ExtTreeMap.getElem?_insert] at onLeft onRight
  simp only [LawfulEqCmp.compare_eq_iff_eq] at onLeft onRight
  split at onLeft <;> split at onRight
  · rename_i here there
    rw [← here, ← there]
  · cases onLeft
    exact absurd (tree.linked_lt right _ onRight) (Nat.lt_irrefl _)
  · cases onRight
    exact absurd (tree.linked_lt left _ onLeft) (Nat.lt_irrefl _)
  · exact tree.linked_once left right inode onLeft onRight

private theorem insert_placed {links : ExtTreeMap Path Nat}
    (room : tree.isDir path = false ∧ tree.isDir path.dropLast = true)
    (known : ∀ (other : Path) (linked : Nat), links[other]? = some linked → tree.links[other]? ≠ none) :
    ∀ (other : Path) (linked : Nat), (links.insert path inode)[other]? = some linked →
      tree.links[other]? ≠ none ∨ tree.isDir other = false ∧ tree.isDir other.dropLast = true := by
  intro other linked found
  rw [ExtTreeMap.getElem?_insert] at found
  split at found
  · rename_i same
    rw [← LawfulEqCmp.eq_of_compare same]
    exact .inr room
  · exact .inl (known other linked found)

/-- Open a file for writing: it is created if it is not there, and emptied if it is. -/
def create (tree : FileTree) (path : Path) : Except Failure (FileTree × Nat) :=
  match tree.links[path]? with
  | some inode => .ok ({ tree with contents := Function.update tree.contents inode [] }, inode)
  | none =>
    if busy : tree.isDir path = true then .error .isADirectory
    else if parent : tree.isDir path.dropLast = true then
      .ok (tree.withLinks (tree.links.insert path tree.next)
        (Function.update tree.contents tree.next []) (tree.next + 1) (tree.insert_linked_lt path)
        (tree.insert_linked_once path)
          (insert_placed ⟨eq_false_of_ne_true busy, parent⟩ fun _ _ found => by simp [found]), tree.next)
    else .error .notFound

/-- Contents with bytes written at a position; a gap is filled with zeros. -/
def splice (contents : List UInt8) (position : Nat) (bytes : List UInt8) : List UInt8 :=
  contents.take position ++ List.replicate (position - contents.length) 0 ++ bytes ++
    contents.drop (position + bytes.length)

/-- Write bytes to an open file. -/
def writeAt (tree : FileTree) (inode position : Nat) (bytes : List UInt8) : FileTree :=
  { tree with
    contents := Function.update tree.contents inode (splice (tree.contents inode) position bytes) }

/-- Read bytes of an open file, none at its end. -/
def readAt (tree : FileTree) (inode position amount : Nat) : List UInt8 :=
  ((tree.contents inode).drop position).take amount

/-- Open a file for reading. -/
def openRead (tree : FileTree) (path : Path) : Except Failure Nat :=
  match tree.links[path]? with
  | some inode => .ok inode
  | none => if tree.isDir path then .error .isADirectory else .error .notFound

variable {source target : Path}

private theorem move_linked_lt (linked : tree.links[source]? = some inode) : ∀ (other : Path) (found : Nat),
      ((tree.links.erase source).insert target inode)[other]? = some found → found < tree.next := by
  intro other found there
  rw [ExtTreeMap.getElem?_insert] at there
  split at there
  · cases there
    exact tree.linked_lt source inode linked
  · rw [ExtTreeMap.getElem?_erase] at there
    split at there
    · cases there
    · exact tree.linked_lt other found there

private theorem move_linked_once (linked : tree.links[source]? = some inode) :
    ∀ (left right : Path) (found : Nat), ((tree.links.erase source).insert target inode)[left]? = some found →
      ((tree.links.erase source).insert target inode)[right]? = some found → left = right := by
  intro left right found onLeft onRight
  -- What the other paths lead to, they led to before, and it is not the file that was moved.
  have earlier {other : Path} (there : (tree.links.erase source)[other]? = some found) :
      tree.links[other]? = some found ∧ inode ≠ found := by
    rw [ExtTreeMap.getElem?_erase] at there
    simp only [LawfulEqCmp.compare_eq_iff_eq] at there
    split at there
    · cases there
    · rename_i different
      refine ⟨there, ?_⟩
      rintro rfl
      exact different (tree.linked_once _ _ _ linked there)
  rw [ExtTreeMap.getElem?_insert] at onLeft onRight
  simp only [LawfulEqCmp.compare_eq_iff_eq] at onLeft onRight
  split at onLeft <;> split at onRight
  · rename_i here there
    rw [← here, ← there]
  · exact absurd (Option.some.inj onLeft) (earlier onRight).2
  · exact absurd (Option.some.inj onRight) (earlier onLeft).2
  · exact tree.linked_once left right found (earlier onLeft).1 (earlier onRight).1

/-- Move a file to another path; what was there is no longer reached. -/
def rename (tree : FileTree) (source target : Path) : Except Failure FileTree :=
  match linked : tree.links[source]? with
  | none => .error .notFound
  | some inode =>
    if busy : tree.isDir target = true then .error .isADirectory
    else if parent : tree.isDir target.dropLast = true then
      .ok (tree.withLinks ((tree.links.erase source).insert target inode) tree.contents tree.next
        (move_linked_lt linked) (move_linked_once linked)
        (insert_placed ⟨eq_false_of_ne_true busy, parent⟩ fun other found there => by
          rw [ExtTreeMap.getElem?_erase] at there
          split at there
          · cases there
          · simp [there]))
    else .error .notFound

/-- Remove a file; who has it open can go on reading. -/
def removeFile (tree : FileTree) (path : Path) : Except Failure FileTree :=
  match tree.links[path]? with
  | none => if tree.isDir path then .error .isADirectory else .error .notFound
  | some _ =>
    .ok (tree.withLinks (tree.links.erase path) tree.contents tree.next
      (fun other inode linked => tree.linked_lt other inode (SparseMap.getElem?_of_erase linked))
      (fun left right inode onLeft onRight =>
        tree.linked_once left right inode (SparseMap.getElem?_of_erase onLeft) (SparseMap.getElem?_of_erase onRight))
      (fun other inode linked => .inl (by simp [SparseMap.getElem?_of_erase linked])))

/-- What opening a file for writing leaves: an empty file at the path, and all other files as they were. -/
theorem create_ok {after : FileTree} (created : tree.create path = .ok (after, inode)) :
    after.dirs = tree.dirs ∧ after.contents = Function.update tree.contents inode [] ∧
      (∀ other, after.links[other]? = if path = other then some inode else tree.links[other]?) ∧
      (tree.links[path]? = some inode ∨ tree.links[path]? = none ∧ inode = tree.next) ∧ tree.next ≤ after.next := by
  unfold create at created
  split at created
  · rename_i found
    cases created
    refine ⟨rfl, rfl, fun other => ?_, .inl found, Nat.le_refl _⟩
    split
    · rename_i same
      rw [← same, found]
    · rfl
  · rename_i missing
    split at created
    · cases created
    · split at created
      · cases created
        refine ⟨rfl, rfl, fun other => ?_, .inr ⟨missing, rfl⟩, Nat.le_succ _⟩
        simp only [withLinks, ExtTreeMap.getElem?_insert, LawfulEqCmp.compare_eq_iff_eq]
      · cases created

/-- What moving a file leaves. -/
theorem rename_ok {after : FileTree} (moved : tree.rename source target = .ok after) :
    ∃ inode, tree.links[source]? = some inode ∧ after.dirs = tree.dirs ∧
      after.contents = tree.contents ∧ after.next = tree.next ∧
      after.links = (tree.links.erase source).insert target inode := by
  unfold rename at moved
  split at moved
  · cases moved
  · rename_i inode linked
    split at moved
    · cases moved
    · split at moved
      · cases moved
        exact ⟨inode, linked, rfl, rfl, rfl, rfl⟩
      · cases moved

/-- What removing a file leaves. -/
theorem removeFile_ok {after : FileTree} (removed : tree.removeFile path = .ok after) :
    after.dirs = tree.dirs ∧ after.contents = tree.contents ∧ after.next = tree.next ∧
      after.links = tree.links.erase path := by
  unfold removeFile at removed
  split at removed
  · split at removed <;> cases removed
  · cases removed
    exact ⟨rfl, rfl, rfl, rfl⟩

end Calls

end FileTree

end Files
