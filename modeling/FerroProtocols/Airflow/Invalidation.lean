import FerroProtocols.Airflow.Freshness

/-! Dropping the entry of a file that has been removed. -/

namespace FerroProtocols.Airflow

open Std Links

section Alone

variable {ruff : Ruff} {shards : Nat} {shardOf : List String → Nat} {shared after final : Shared} {path : RawPath}
  {place : List String} {turns : List Turn}

/-- A request that nothing comes in between of, for so many turns. -/
def runAlone (ruff : Ruff) (shards : Nat) (shardOf : List String → Nat) (req : CacheRequest) (turns : List Turn)
    (shared : Shared) : Shared × CachePoint :=
  turns.foldl (fun current turn => cacheStep ruff shards shardOf req turn current.1 current.2) (shared, .ready)

private theorem runAlone_invariant {req : CacheRequest} {holds : Shared → CachePoint → Prop}
    (initial : holds shared .ready)
    (step : ∀ turn current point, holds current point →
      holds (cacheStep ruff shards shardOf req turn current point).1
        (cacheStep ruff shards shardOf req turn current point).2) :
    holds (runAlone ruff shards shardOf req turns shared).1 (runAlone ruff shards shardOf req turns shared).2 := by
  have run (current : Shared × CachePoint) (start : holds current.1 current.2) :
      holds (turns.foldl (fun current turn => cacheStep ruff shards shardOf req turn current.1 current.2) current).1
        (turns.foldl (fun current turn => cacheStep ruff shards shardOf req turn current.1 current.2)
          current).2 := by
    induction turns generalizing current with
    | nil => exact start
    | cons turn rest ih => exact ih _ (step turn current.1 current.2 start)
  exact run (shared, .ready) initial

/-- What a call for a file that is alone knows of its key and its entry. -/
def Keyed (fs : FileSystem SourceFile) (path : RawPath) (shared : Shared) : CachePoint → Prop
  | .located key => key = canonicalise fs path
  | .statted key _ | .missed key _ | .loaded key _ _ | .parsing key _ _ | .inserting key _ =>
    ∃ place, fs.resolve path = some place ∧ key = ⟨true, place⟩
  | .answered (.ok _) =>
    ∃ place, fs.resolve path = some place ∧ (shared.inner[RawPath.components ⟨true, place⟩]?).isSome = true
  | _ => True

private theorem keyed_getOrParse {fs : FileSystem SourceFile} {turn : Turn} {point : CachePoint}
    (known : shared.fs = fs ∧ Keyed fs path shared point) : (getOrParse ruff turn path shared point).1.fs = fs ∧
      Keyed fs path (getOrParse ruff turn path shared point).1 (getOrParse ruff turn path shared point).2 := by
  obtain ⟨rfl, keyed⟩ := known
  cases point with
  | ready => exact ⟨rfl, rfl⟩
  | located key =>
    have same : key = canonicalise shared.fs path := keyed
    simp only [getOrParse]
    split
    · exact ⟨rfl, trivial⟩
    · rename_i fingerprint found
      obtain ⟨place, reached, _⟩ := Option.map_eq_some_iff.mp found
      rw [same, resolve_canonicalise] at reached
      exact ⟨rfl, place, reached, same.trans (canonicalise_of_resolve reached)⟩
  | statted key fingerprint =>
    obtain ⟨place, reached, rfl⟩ := keyed
    simp only [getOrParse]
    split
    · rename_i entry found
      split
      · exact ⟨rfl, place, reached, by rw [found]; rfl⟩
      · exact ⟨rfl, place, reached, rfl⟩
    · exact ⟨rfl, place, reached, rfl⟩
  | missed | parsing =>
    simp only [getOrParse]
    split
    · exact ⟨rfl, trivial⟩
    · exact ⟨rfl, keyed⟩
  | loaded key fingerprint source =>
    simp only [getOrParse]
    split
    · split <;> exact ⟨rfl, keyed⟩
    · exact ⟨rfl, keyed⟩
  | inserting key entry =>
    obtain ⟨place, reached, rfl⟩ := keyed
    refine ⟨rfl, place, reached, ?_⟩
    show ((shared.inner.insert _ entry)[_]?).isSome = true
    rw [ExtTreeMap.getElem?_insert_self]
    rfl
  | answered result => exact ⟨rfl, keyed⟩
  | forgetting | clearing | finished => exact ⟨rfl, trivial⟩

private theorem entry_of_getOrParse {outcome : ParseOutcome}
    (succeeded : runAlone ruff shards shardOf (.getOrParse path) turns shared = (after, .answered (.ok outcome)))
    (reached : after.fs.resolve path = some place) :
    (after.inner[RawPath.components ⟨true, place⟩]?).isSome = true := by
  have keyed := @runAlone_invariant ruff shards shardOf shared turns (.getOrParse path)
    (fun current point => current.fs = shared.fs ∧ Keyed shared.fs path current point) ⟨rfl, trivial⟩
    (fun turn current point known => keyed_getOrParse known)
  rw [succeeded] at keyed
  obtain ⟨same, other, there, found⟩ := keyed
  rw [same, there] at reached
  cases reached
  exact found

/-- What a call to drop an entry has done, if the path leads nowhere. -/
def Dropping (path : RawPath) (start current : Shared) : CachePoint → Prop
  | .ready => current = start
  | .forgetting key => current = start ∧ key = path
  | .finished => current.inner = start.inner.erase path.components
  | _ => False

private theorem inner_of_invalidate (nowhere : shared.fs.resolve path = none)
    (dropped : runAlone ruff shards shardOf (.invalidate path) turns shared = (final, .finished)) :
    final.inner = shared.inner.erase path.components := by
  have known :=
    @runAlone_invariant ruff shards shardOf shared turns (.invalidate path) (Dropping path shared) rfl (by
    intro turn current point before
    cases point with
    | ready =>
      have same : current = shared := before
      rw [same]
      exact ⟨rfl, canonicalise_of_none nowhere⟩
    | forgetting key =>
      obtain ⟨rfl, rfl⟩ := before
      exact rfl
    | finished => exact before
    | _ => exact before)
  rw [dropped] at known
  exact known

end Alone

section Runs

variable {ruff : Ruff} {shards : Nat} {shardOf : List String → Nat} {shared after final : Shared} {path : RawPath}
  {place : List String} {turns later : List Turn} {outcome : ParseOutcome}

/-- A call for a file succeeds, the file is removed, and the entry of its path is dropped: the entry is gone
exactly if the path is written as its canonical path. -/
theorem invalidate_after_delete_iff
    (succeeded : runAlone ruff shards shardOf (.getOrParse path) turns shared = (after, .answered (.ok outcome)))
    (reached : after.fs.resolve path = some place) (file : after.fs.isFile place = true)
    (dropped : runAlone ruff shards shardOf (.invalidate path) later { after with fs := after.fs.unlink place } =
      (final, .finished)) : (after.inner[RawPath.components ⟨true, place⟩]?).isSome = true ∧
      (final.inner[RawPath.components ⟨true, place⟩]? = none ↔
        path.components = RawPath.components ⟨true, place⟩) := by
  have there := entry_of_getOrParse succeeded reached
  refine ⟨there, ?_⟩
  -- The path leads nowhere by now.
  rw [inner_of_invalidate (FileSystem.resolve_unlink file reached) dropped, ExtTreeMap.getElem?_erase]
  simp only [LawfulEqCmp.compare_eq_iff_eq]
  split
  · rename_i same
    exact ⟨fun _ => same, fun _ => rfl⟩
  · rename_i other
    refine ⟨fun gone => ?_, fun same => absurd same other⟩
    rw [gone] at there
    cases there

/-- A file in a directory, and a link to it; relative paths start from the root. -/
def linkedFile : FileSystem SourceFile :=
  (((FileSystem.empty SourceFile).add ["dags"] .dir).add ["dags", "a.py"] (.file emptyFile)).add ["l.py"]
    (.link ⟨true, ["dags", "a.py"]⟩)

/-- A call for the file by some path. -/
def callBy (path : RawPath) : Shared × CachePoint :=
  runAlone (.reading "" []) 1 (fun _ => 0) (.getOrParse path) (List.replicate 7 plainTurn) ⟨linkedFile, ∅⟩

/-- The call, then the removal of the file, then the drop of the entry of the same path. -/
def dropBy (path : RawPath) : Shared × CachePoint :=
  runAlone (.reading "" []) 1 (fun _ => 0) (.invalidate path) (List.replicate 2 plainTurn)
    { (callBy path).1 with fs := (callBy path).1.fs.unlink ["dags", "a.py"] }

/-- A dot in an absolute path does no harm. -/
theorem invalidate_after_delete_iff_dotted :
    (dropBy ⟨true, ["dags", ".", "a.py"]⟩).1.inner[RawPath.components ⟨true, ["dags", "a.py"]⟩]? = none := by
  obtain ⟨returned, reached, file, written⟩ : (callBy ⟨true, ["dags", ".", "a.py"]⟩).2.returned.isSome = true ∧
      (callBy ⟨true, ["dags", ".", "a.py"]⟩).1.fs.resolve ⟨true, ["dags", ".", "a.py"]⟩ = some ["dags", "a.py"] ∧
      (callBy ⟨true, ["dags", ".", "a.py"]⟩).1.fs.isFile ["dags", "a.py"] = true ∧
      RawPath.components ⟨true, ["dags", ".", "a.py"]⟩ = RawPath.components ⟨true, ["dags", "a.py"]⟩ := by
    decide +kernel
  obtain ⟨outcome, returned⟩ := Option.isSome_iff_exists.mp returned
  have succeeded := CachePoint.returned_eq_some returned
  exact (@invalidate_after_delete_iff (.reading "" []) 1 (fun _ => 0) ⟨linkedFile, ∅⟩ _
    (dropBy ⟨true, ["dags", ".", "a.py"]⟩).1
    ⟨true, ["dags", ".", "a.py"]⟩ _ (List.replicate 7 plainTurn) (List.replicate 2 plainTurn) outcome
    (Prod.ext rfl succeeded) reached file rfl).2.mpr written

/-- By a relative path, by a link or by a path with two dots, the entry stays although the file is gone. -/
theorem entry_left_behind :
    [RawPath.mk false ["dags", "a.py"], ⟨true, ["l.py"]⟩, ⟨true, ["dags", "..", "dags", "a.py"]⟩].all (fun path =>
      (callBy path).2.returned.isSome && (callBy path).1.fs.resolve path = some ["dags", "a.py"] &&
        ((dropBy path).1.inner[RawPath.components ⟨true, ["dags", "a.py"]⟩]?).isSome) = true := by
  decide +kernel

end Runs

end FerroProtocols.Airflow
