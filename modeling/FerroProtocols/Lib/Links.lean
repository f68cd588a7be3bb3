import Std.Data.ExtTreeMap
import Mathlib.Data.List.Basic
import Mathlib.Data.List.Induction

/-! Directories, files and symbolic links, and what a path leads to. -/

namespace Links

open Std

/-- A path as it is written, by the texts between its slashes. -/
structure RawPath where
  absolute : Bool
  segments : List String
  deriving DecidableEq, Repr

/-- The components of a path: empty texts and dots are left out, except for a dot at the beginning. Two paths
are the same if they have the same components. -/
def RawPath.components (path : RawPath) : List String :=
  (if path.absolute then ["/"] else if path.segments.head? = some "." then ["."] else []) ++
    path.segments.filter fun segment => segment ≠ "" ∧ segment ≠ "."

/-- What stands in a directory: a directory, a file or a link. -/
inductive Node (α : Type) where
  | dir
  | file (contents : α)
  | link (target : RawPath)
  deriving DecidableEq, Repr

/-- A name that leads down. -/
def plainName (name : String) : Bool := name ≠ "" && name ≠ "." && name ≠ ".."

/-- The nodes below the root, by the names that lead to them, and the directory that relative paths start from. -/
structure FileSystem (α : Type) where
  nodes : ExtTreeMap (List String) (Node α)
  cwd : List String
  named : ∀ (place : List String) (node : Node α), nodes[place]? = some node → place.all plainName = true
  parent : ∀ (place : List String) (node : Node α), nodes[place]? = some node →
    place ≠ [] ∧ (place.dropLast = [] ∨ nodes[place.dropLast]? = some .dir)
  started : cwd = [] ∨ nodes[cwd]? = some .dir

namespace FileSystem

variable {α : Type} (fs : FileSystem α)

/-- A place is a directory; the root is one. -/
def isDir (place : List String) : Bool :=
  match place, fs.nodes[place]? with
  | [], _ => true
  | _, some .dir => true
  | _, _ => false

/-- A place below the root is a directory exactly if its node is one. -/
theorem isDir_iff {fs : FileSystem α} {place : List String} :
    fs.isDir place = true ↔ place = [] ∨ fs.nodes[place]? = some .dir := by
  unfold isDir
  cases place with
  | nil => simp
  | cons name rest => rcases found : fs.nodes[name :: rest]? with _ | (_ | contents | target) <;> simp

/-- A walk from a place, given how it goes on from a place once a link is followed. -/
def walk (follow : List String → List String → Option (List String)) :
    List String → List String → Option (List String)
  | place, [] => some place
  | place, segment :: rest =>
    if fs.isDir place = false then none
    else if segment = "" ∨ segment = "." then walk follow place rest
    else if segment = ".." then walk follow place.dropLast rest
    else
      match fs.nodes[place ++ [segment]]? with
      | none => none
      | some (.link target) => follow (if target.absolute then [] else place) (target.segments ++ rest)
      | some (.dir) | some (.file _) => walk follow (place ++ [segment]) rest

/-- A walk that follows at most so many links. -/
def walkLinks : Nat → List String → List String → Option (List String)
  | 0 => fs.walk fun _ _ => none
  | links + 1 => fs.walk (walkLinks links)

/-- The number of links that are followed. -/
def maxLinks : Nat := 40

/-- The place that a path leads to; an empty path leads nowhere. -/
def resolve (path : RawPath) : Option (List String) :=
  if path.absolute = false ∧ path.segments.all (· = "") then none
  else fs.walkLinks maxLinks (if path.absolute then [] else fs.cwd) path.segments

/-- The path of a place without links and dots. -/
def canonicalize (path : RawPath) : Option RawPath := (fs.resolve path).map (⟨true, ·⟩)

/-- A root with nothing below it. -/
def empty (α : Type) : FileSystem α where
  nodes := ∅
  cwd := []
  named := by simp
  parent := by simp
  started := .inl rfl

/-- The nodes with one put at a place, where a directory has stayed one. -/
def put (place : List String) (node : Node α) (plain : place.all plainName = true)
    (inside : place ≠ [] ∧ fs.isDir place.dropLast = true) (kept : fs.isDir place = true → node = .dir) :
    FileSystem α where
  nodes := fs.nodes.insert place node
  cwd := fs.cwd
  named := by
    intro other found there
    rw [ExtTreeMap.getElem?_insert] at there
    simp only [LawfulEqCmp.compare_eq_iff_eq] at there
    split at there
    · rename_i same
      rw [← same]
      exact plain
    · exact fs.named other found there
  parent := by
    have dirs (other : List String) (dir : fs.isDir other = true) :
        other = [] ∨ (fs.nodes.insert place node)[other]? = some .dir := by
      rw [ExtTreeMap.getElem?_insert]
      simp only [LawfulEqCmp.compare_eq_iff_eq]
      by_cases same : place = other
      · rw [if_pos same, kept (same ▸ dir)]
        exact .inr rfl
      · rw [if_neg same]
        exact isDir_iff.mp dir
    intro other found there
    rw [ExtTreeMap.getElem?_insert] at there
    simp only [LawfulEqCmp.compare_eq_iff_eq] at there
    split at there
    · rename_i same
      rw [← same]
      exact ⟨inside.1, dirs _ inside.2⟩
    · obtain ⟨proper, above⟩ := fs.parent other found there
      exact ⟨proper, dirs _ (isDir_iff.mpr above)⟩
  started := by
    rw [ExtTreeMap.getElem?_insert]
    simp only [LawfulEqCmp.compare_eq_iff_eq]
    by_cases same : place = fs.cwd
    · rw [if_pos same, kept (same ▸ isDir_iff.mpr fs.started)]
      exact .inr rfl
    · rw [if_neg same]
      exact fs.started

/-- The nodes with one more in a directory; what is there stays. -/
def add (place : List String) (node : Node α) : FileSystem α :=
  if inside : place.all plainName = true ∧ (place ≠ [] ∧ fs.isDir place.dropLast = true) ∧
      fs.nodes[place]?.isNone = true then
    fs.put place node inside.1 inside.2.1 fun dir => by
      rcases isDir_iff.mp dir with root | there
      · exact absurd root inside.2.1.1
      · rw [there] at inside
        cases inside.2.2
  else fs

/-- A place is a file. -/
def isFile (place : List String) : Bool :=
  match fs.nodes[place]? with
  | some (.file _) => true
  | _ => false

variable {fs}

variable {place : List String}

/-- A place is a file exactly if its node is one. -/
theorem isFile_iff : fs.isFile place = true ↔ ∃ contents, fs.nodes[place]? = some (.file contents) := by
  unfold isFile
  rcases found : fs.nodes[place]? with _ | (_ | contents | target) <;> simp

private theorem not_isDir_of_isFile (file : fs.isFile place = true) : ¬ fs.isDir place = true := by
  obtain ⟨contents, there⟩ := isFile_iff.mp file
  intro dir
  rcases isDir_iff.mp dir with root | dir
  · exact (fs.parent place _ there).1 root
  · rw [there] at dir
    cases dir

private theorem inside_of_isFile (file : fs.isFile place = true) : place ≠ [] ∧ fs.isDir place.dropLast = true := by
  obtain ⟨contents, there⟩ := isFile_iff.mp file
  obtain ⟨proper, above⟩ := fs.parent place _ there
  exact ⟨proper, isDir_iff.mpr above⟩

private theorem plain_of_isFile (file : fs.isFile place = true) : place.all plainName = true := by
  obtain ⟨contents, there⟩ := isFile_iff.mp file
  exact fs.named place _ there

variable (fs)

/-- The nodes with other contents of a file; nothing else is written. -/
def rewrite (place : List String) (contents : α) : FileSystem α :=
  if file : fs.isFile place = true then
    fs.put place (.file contents) (plain_of_isFile file) (inside_of_isFile file) fun dir =>
      absurd dir (not_isDir_of_isFile file)
  else fs

/-- The nodes without a file; nothing else is removed. -/
def unlink (place : List String) : FileSystem α :=
  if file : fs.isFile place = true then
    { fs with
      nodes := fs.nodes.erase place
      named := by
        intro other found there
        rw [ExtTreeMap.getElem?_erase] at there
        simp only [LawfulEqCmp.compare_eq_iff_eq] at there
        split at there
        · cases there
        · exact fs.named other found there
      parent := by
        intro other found there
        rw [ExtTreeMap.getElem?_erase] at there ⊢
        simp only [LawfulEqCmp.compare_eq_iff_eq] at there ⊢
        split at there
        · cases there
        · obtain ⟨proper, above⟩ := fs.parent other found there
          have apart : place ≠ other.dropLast := fun same => not_isDir_of_isFile file (same ▸ isDir_iff.mpr above)
          rw [if_neg apart]
          exact ⟨proper, above⟩
      started := by
        rw [ExtTreeMap.getElem?_erase]
        simp only [LawfulEqCmp.compare_eq_iff_eq]
        have apart : place ≠ fs.cwd := fun same => not_isDir_of_isFile file (same ▸ isDir_iff.mpr fs.started)
        rw [if_neg apart]
        exact fs.started }
  else fs

variable {fs}

private theorem isDir_dropLast {place : List String} (dir : fs.isDir place = true) :
    fs.isDir place.dropLast = true := by
  rcases isDir_iff.mp dir with root | there
  · rw [root]
    rfl
  · exact isDir_iff.mpr (fs.parent place _ there).2

section Canonical

/-- A place is one where a walk can end: a directory or a file. -/
def isPlace (fs : FileSystem α) (place : List String) : Bool := fs.isDir place || fs.isFile place

variable {place : List String}

private theorem isPlace_of_walk {follow : List String → List String → Option (List String)}
    (onward : ∀ start segments place, fs.isDir start = true → follow start segments = some place →
      fs.isPlace place = true)
    {start segments : List String} (there : fs.isPlace start = true)
    (reached : fs.walk follow start segments = some place) : fs.isPlace place = true := by
  induction segments generalizing start with
  | nil =>
    cases reached
    exact there
  | cons segment rest ih =>
    rw [walk] at reached
    split at reached
    · cases reached
    rename_i inside
    have dir : fs.isDir start = true := eq_true_of_ne_false inside
    split at reached
    · exact ih there reached
    split at reached
    · exact ih (Bool.or_eq_true_iff.mpr (.inl (isDir_dropLast dir))) reached
    split at reached
    · cases reached
    · refine onward _ _ _ ?_ reached
      split
      · rfl
      · exact dir
    · rename_i inner
      exact ih (Bool.or_eq_true_iff.mpr (.inl (isDir_iff.mpr (.inr inner)))) reached
    · rename_i contents inner
      exact ih (Bool.or_eq_true_iff.mpr (.inr (isFile_iff.mpr ⟨contents, inner⟩))) reached

/-- What a path leads to is a directory or a file. -/
theorem isPlace_of_resolve {path : RawPath} (reached : fs.resolve path = some place) : fs.isPlace place = true := by
  have links (count : Nat) : ∀ start segments place, fs.isDir start = true →
      fs.walkLinks count start segments = some place → fs.isPlace place = true := by
    induction count with
    | zero =>
      intro start segments place dir reached
      exact isPlace_of_walk (fun _ _ _ _ impossible => (by cases impossible))
        (Bool.or_eq_true_iff.mpr (.inl dir)) reached
    | succ count ih =>
      intro start segments place dir reached
      exact isPlace_of_walk ih (Bool.or_eq_true_iff.mpr (.inl dir)) reached
  rw [resolve] at reached
  split at reached
  · cases reached
  · refine links maxLinks _ _ _ ?_ reached
    split
    · rfl
    · exact isDir_iff.mpr fs.started

private theorem isDir_of_append {front back : List String} {node : Node α}
    (found : fs.nodes[front ++ back]? = some node)
    (proper : back ≠ []) : fs.isDir front = true := by
  -- Induction from the last name up.
  induction back using List.reverseRecOn generalizing node with
  | nil => exact absurd rfl proper
  | append_singleton back name ih =>
    have above := (fs.parent _ _ found).2
    rw [← List.append_assoc, List.dropLast_concat] at above
    by_cases direct : back = []
    · rw [direct, List.append_nil] at above
      exact isDir_iff.mpr above
    · rcases above with root | dir
      · exact absurd (List.append_eq_nil_iff.mp root).2 direct
      · exact ih dir direct

private theorem walk_place {follow : List String → List String → Option (List String)} {front back : List String}
    (there : fs.isPlace (front ++ back) = true) : fs.walk follow front back = some (front ++ back) := by
  induction back generalizing front with
  | nil => rw [walk, List.append_nil]
  | cons name rest ih =>
    obtain ⟨node, found⟩ : ∃ node, fs.nodes[front ++ name :: rest]? = some node := by
      rcases Bool.or_eq_true_iff.mp there with dir | file
      · rcases isDir_iff.mp dir with root | dir
        · exact absurd root (List.append_ne_nil_of_right_ne_nil front (List.cons_ne_nil name rest))
        · exact ⟨_, dir⟩
      · obtain ⟨contents, file⟩ := isFile_iff.mp file
        exact ⟨_, file⟩
    have dir := isDir_of_append found (List.cons_ne_nil name rest)
    have plain : plainName name = true :=
      List.all_eq_true.mp (fs.named _ _ found) name (List.mem_append_right front List.mem_cons_self)
    simp only [plainName, Bool.and_eq_true, decide_eq_true_eq] at plain
    obtain ⟨⟨filled, moves⟩, down⟩ := plain
    have whole : front ++ name :: rest = front ++ [name] ++ rest := by rw [List.append_assoc, List.singleton_append]
    rw [whole] at there found ⊢
    rw [walk, if_neg (by rw [dir]; decide), if_neg (not_or.mpr ⟨filled, moves⟩), if_neg down]
    -- The next name is that of a directory, or of the place itself.
    have next : fs.nodes[front ++ [name]]? = some .dir ∨
        ∃ contents, fs.nodes[front ++ [name]]? = some (.file contents) := by
      cases rest with
      | nil =>
        rw [List.append_nil] at there
        rcases Bool.or_eq_true_iff.mp there with dir | file
        · rcases isDir_iff.mp dir with root | dir
          · exact absurd root (List.append_ne_nil_of_right_ne_nil front (List.cons_ne_nil name []))
          · exact .inl dir
        · exact .inr (isFile_iff.mp file)
      | cons other rest =>
        rcases isDir_iff.mp (isDir_of_append found (List.cons_ne_nil other rest)) with root | dir
        · exact absurd root (List.append_ne_nil_of_right_ne_nil front (List.cons_ne_nil name []))
        · exact .inl dir
    rcases next with dir | ⟨contents, file⟩
    · rw [dir]
      exact ih there
    · rw [file]
      exact ih there

/-- The canonical path of a place leads to it. -/
theorem resolve_canonical {path : RawPath} (reached : fs.resolve path = some place) :
    fs.resolve ⟨true, place⟩ = some place := by
  rw [resolve, if_neg (fun relative => Bool.noConfusion relative.1), if_pos rfl]
  exact @walk_place _ _ _ [] place (isPlace_of_resolve reached)

private theorem plain_of_isPlace (there : fs.isPlace place = true) : place.all plainName = true := by
  rcases Bool.or_eq_true_iff.mp there with dir | file
  · rcases isDir_iff.mp dir with root | dir
    · rw [root]
      rfl
    · exact fs.named place _ dir
  · exact plain_of_isFile file

/-- The components of the canonical path of a place are its names. -/
theorem components_canonical (there : fs.isPlace place = true) :
    RawPath.components ⟨true, place⟩ = "/" :: place := by
  have kept : place.filter (fun segment => segment ≠ "" ∧ segment ≠ ".") = place := by
    refine List.filter_eq_self.mpr fun name member => ?_
    have plain := List.all_eq_true.mp (plain_of_isPlace there) name member
    simp only [plainName, Bool.and_eq_true, decide_eq_true_eq] at plain ⊢
    exact plain.1
  rw [RawPath.components, kept]
  rfl

end Canonical

section Rewrite

variable {place : List String} {contents : α}

/-- Only the contents of a file are replaced. -/
theorem getElem?_rewrite (other : List String) : (fs.rewrite place contents).nodes[other]? =
      if place = other ∧ fs.isFile place = true then some (.file contents) else fs.nodes[other]? := by
  by_cases file : fs.isFile place = true
  · simp [rewrite, file, put, ExtTreeMap.getElem?_insert, LawfulEqCmp.compare_eq_iff_eq]
  · simp [rewrite, file]

private theorem isDir_rewrite (other : List String) : (fs.rewrite place contents).isDir other = fs.isDir other := by
  apply Bool.eq_iff_iff.mpr
  rw [isDir_iff, isDir_iff, getElem?_rewrite]
  split
  · rename_i replaced
    obtain ⟨before, file⟩ := isFile_iff.mp replaced.2
    rw [← replaced.1, file]
    simp
  · rfl

private theorem walk_rewrite {follow : List String → List String → Option (List String)}
    (start segments : List String) :
    (fs.rewrite place contents).walk follow start segments = fs.walk follow start segments := by
  induction segments generalizing start with
  | nil => rfl
  | cons segment rest ih =>
    simp only [walk, isDir_rewrite, ih, getElem?_rewrite]
    by_cases replaced : place = start ++ [segment] ∧ fs.isFile place = true
    · obtain ⟨before, file⟩ := isFile_iff.mp replaced.2
      rw [if_pos replaced, ← replaced.1, file]
    · rw [if_neg replaced]

/-- Paths go on leading to the same places. -/
@[simp]
theorem resolve_rewrite (path : RawPath) : (fs.rewrite place contents).resolve path = fs.resolve path := by
  have links (count : Nat) : (fs.rewrite place contents).walkLinks count = fs.walkLinks count := by
    induction count with
    | zero =>
      funext start segments
      exact walk_rewrite start segments
    | succ count ih =>
      funext start segments
      rw [walkLinks, walkLinks, ih, walk_rewrite]
  have same : (fs.rewrite place contents).cwd = fs.cwd := by
    unfold rewrite
    split <;> rfl
  rw [resolve, resolve, links, same]

end Rewrite

section Unlink

variable {file : List String}

private theorem getElem?_unlink (there : fs.isFile file = true) (place : List String) :
    (fs.unlink file).nodes[place]? = if file = place then none else fs.nodes[place]? := by
  rw [unlink, dif_pos there]
  simp only [ExtTreeMap.getElem?_erase, LawfulEqCmp.compare_eq_iff_eq]

private theorem isDir_unlink (there : fs.isFile file = true) (place : List String) :
    (fs.unlink file).isDir place = fs.isDir place := by
  apply Bool.eq_iff_iff.mpr
  rw [isDir_iff, isDir_iff, getElem?_unlink there]
  by_cases same : file = place
  · obtain ⟨contents, found⟩ := isFile_iff.mp there
    rw [if_pos same, ← same, found]
    simp
  · rw [if_neg same]

private theorem walk_unlink (there : fs.isFile file = true)
    {follow after : List String → List String → Option (List String)}
    (onward : ∀ start segments, fs.isDir start = true → follow start segments = some file →
      after start segments = none)
    {start segments : List String} (dir : fs.isDir start = true)
    (reached : fs.walk follow start segments = some file) :
    (fs.unlink file).walk after start segments = none := by
  induction segments generalizing start with
  | nil =>
    -- A directory is not the file, so the file has to be met on the way.
    cases reached
    exact absurd dir (not_isDir_of_isFile there)
  | cons segment rest ih =>
    simp only [walk, dir, isDir_unlink there, getElem?_unlink there] at reached ⊢
    simp only [Bool.true_eq_false, if_false] at reached ⊢
    split at reached
    · rename_i stays
      rw [if_pos stays]
      exact ih dir reached
    rename_i moves
    rw [if_neg moves]
    split at reached
    · rename_i up
      rw [if_pos up]
      exact ih (isDir_dropLast dir) reached
    rename_i down
    rw [if_neg down]
    by_cases met : file = start ++ [segment]
    · rw [if_pos met]
    rw [if_neg met]
    split at reached
    · cases reached
    · refine onward _ _ ?_ reached
      split
      · rfl
      · exact dir
    · rename_i inner
      exact ih (isDir_iff.mpr (.inr inner)) reached
    · rename_i contents other
      -- From another file the walk goes nowhere, and it has not reached the one that is removed.
      cases rest with
      | nil => exact absurd (Option.some.inj reached).symm met
      | cons next rest =>
        have noDir : fs.isDir (start ++ [segment]) = false :=
          Bool.eq_false_iff.mpr (not_isDir_of_isFile (isFile_iff.mpr ⟨contents, other⟩))
        simp [walk, isDir_unlink there, noDir]

/-- A path that led to a file leads nowhere once the file is removed. -/
theorem resolve_unlink (there : fs.isFile file = true) {path : RawPath} (reached : fs.resolve path = some file) :
    (fs.unlink file).resolve path = none := by
  have links (count : Nat) : ∀ start segments, fs.isDir start = true →
    fs.walkLinks count start segments = some file →
      (fs.unlink file).walkLinks count start segments = none := by
    induction count with
    | zero =>
      intro start segments dir reached
      exact walk_unlink there (fun _ _ _ impossible => (by cases impossible)) dir reached
    | succ count ih =>
      intro start segments dir reached
      exact walk_unlink there ih dir reached
  have same : (fs.unlink file).cwd = fs.cwd := by rw [unlink, dif_pos there]
  rw [resolve] at reached ⊢
  split at reached
  · cases reached
  · rename_i filled
    rw [if_neg filled, same]
    refine links maxLinks _ _ ?_ reached
    split
    · rfl
    · exact isDir_iff.mpr fs.started

end Unlink

end FileSystem

end Links
