import FerroProtocols.Airflow.Cache
import FerroProtocols.Airflow.Tasks

/-! A call returns what the file was parsed as for contents that it had during the call. -/

namespace FerroProtocols.Airflow

open Fallible

open Std Links Interleaving FileSystem

/-- Calls, drops and rewrites that take turns on an empty cache. -/
structure CacheRun (ι : Type) where
  ruff : Ruff
  shards : Nat
  shardOf : List String → Nat
  requests : ι → CacheRequest
  -- The files at the beginning.
  fs : FileSystem SourceFile
  events : List (ι × Turn)

namespace CacheRun

variable {ι : Type} [DecidableEq ι] (run : CacheRun ι)

/-- The state at a moment. -/
def state (moment : Nat) : State ι Shared CachePoint :=
  stateAt (cacheProgram run.ruff run.shards run.shardOf run.requests)
    ⟨⟨run.fs, ∅⟩, fun _ => .ready⟩ run.events moment

/-- The file at a place and a moment. -/
def file (moment : Nat) (place : List String) : Option SourceFile := fileAt (run.state moment).shared.fs place

/-- Every rewrite gives a file a fingerprint that it never had before. -/
def FreshRewrites : Prop :=
  ∀ (moment : Nat) (thread : ι) (turn : Turn) (place : List String) (file : SourceFile),
    run.events[moment]? = some (thread, turn) → run.requests thread = .rewrite place file →
    (run.state moment).points thread = .ready →
    ∀ earlier ≤ moment, ∀ old, run.file earlier place = some old → old.fingerprint ≠ file.fingerprint

/-- Texts that one file has at any moments have different hashes. -/
def HashesApart : Prop :=
  ∀ (place : List String) (first second : Nat) (firstFile secondFile : SourceFile) (firstText secondText : String),
    run.file first place = some firstFile → run.file second place = some secondFile →
    firstFile.text = some firstText → secondFile.text = some secondText →
    hashSource firstText = hashSource secondText → firstText = secondText

/-- A source was parsed in some turn, with an outcome. -/
def Parsed (place : List String) (source : String) (outcome : ParseOutcome) : Prop :=
  ∃ event ∈ run.events, parseDagFile run.ruff event.2 ⟨true, place⟩ source (hashSource source) = .ok outcome

/-- A file had a text at some moment. -/
def HadText (first last : Nat) (place : List String) (source : String) : Prop :=
  ∃ moment file, first ≤ moment ∧ moment ≤ last ∧ run.file moment place = some file ∧ file.text = some source

/-- A file had a fingerprint at some moment, and a text at the same moment or later. -/
def Sampled (first last : Nat) (place : List String) (fingerprint : FileFingerprint) (source : String) : Prop :=
  ∃ seen file, first ≤ seen ∧ run.file seen place = some file ∧ file.fingerprint = fingerprint ∧
    run.HadText seen last place source

/-- An entry is made of a fingerprint and a text of one file. -/
def Entered (first last : Nat) (place : List String) (entry : CacheEntry) : Prop :=
  ∃ source, run.Sampled first last place entry.fingerprint source ∧ entry.sourceHash = hashSource source ∧
    run.Parsed place source entry.outcome

/-- All entries are made so, each under the place of its file. -/
def EntriesOk (last : Nat) (shared : Shared) : Prop :=
  ∀ (key : List String) (entry : CacheEntry), shared.inner[key]? = some entry →
    ∃ place, key = "/" :: place ∧ run.Entered 0 last place entry

/-- What a call has seen of its file since some moment. -/
def CallOk (first last : Nat) (path : RawPath) : CachePoint → Prop
  | .located key => key = canonicalise run.fs path
  | .statted key fingerprint | .missed key fingerprint =>
    ∃ place, run.fs.resolve path = some place ∧ key = ⟨true, place⟩ ∧
      ∃ seen, first ≤ seen ∧ seen ≤ last ∧ ∀ file, run.file seen place = some file → file.fingerprint = fingerprint
  | .loaded key fingerprint source | .parsing key fingerprint source => ∃ place, run.fs.resolve path = some place ∧
      key = ⟨true, place⟩ ∧ run.Sampled first last place fingerprint source
  | .inserting key entry => ∃ place, run.fs.resolve path = some place ∧ key = ⟨true, place⟩ ∧
      run.Entered first last place entry
  | .answered (.ok outcome) =>
    ∃ place source, run.fs.resolve path = some place ∧ run.HadText first last place source ∧
      run.Parsed place source outcome
  | _ => True

variable {run}

section Files

private theorem fs_cacheStep {ruff : Ruff} {shards : Nat} {shardOf : List String → Nat} (req : CacheRequest)
    (turn : Turn)
    (shared : Shared) (point : CachePoint) :
    (cacheStep ruff shards shardOf req turn shared point).1.fs = shared.fs ∨
      ∃ place file, req = .rewrite place file ∧ point = .ready ∧
        (cacheStep ruff shards shardOf req turn shared point).1.fs = shared.fs.rewrite place file := by
  cases req with
  | getOrParse path =>
    left
    simp only [cacheStep, getOrParse]
    split <;> (try split) <;> (try split) <;> rfl
  | invalidate path =>
    left
    simp only [cacheStep, invalidate]
    split <;> rfl
  | clear =>
    left
    simp only [cacheStep, clear]
    split <;> rfl
  | rewrite place file =>
    cases point with
    | ready => exact .inr ⟨place, file, rfl, rfl, rfl⟩
    | _ => exact .inl rfl

private theorem fs_state_succ (moment : Nat) : (run.state (moment + 1)).shared.fs = (run.state moment).shared.fs ∨
      ∃ thread turn place file, run.events[moment]? = some (thread, turn) ∧
        run.requests thread = .rewrite place file ∧
        (run.state moment).points thread = .ready ∧
        (run.state (moment + 1)).shared.fs = (run.state moment).shared.fs.rewrite place file := by
  cases next : run.events[moment]? with
  | none =>
    rw [state, stateAt_succ_of_none next]
    exact .inl rfl
  | some event =>
    rw [state, stateAt_succ next]
    rcases fs_cacheStep (run.requests event.1) event.2 (run.state moment).shared
      ((run.state moment).points event.1) with
      same | ⟨place, file, req, ready, written⟩
    · exact .inl same
    · exact .inr ⟨event.1, event.2, place, file, rfl, req, ready, written⟩

private theorem resolve_state (moment : Nat) (path : RawPath) :
    (run.state moment).shared.fs.resolve path = run.fs.resolve path := by
  induction moment with
  | zero => rfl
  | succ moment ih =>
    rcases @fs_state_succ _ _ run moment with same | ⟨thread, turn, place, file, _, _, _, written⟩
    · rw [same, ih]
    · rw [written, resolve_rewrite, ih]

private theorem isSome_file (moment : Nat) (place : List String) :
    (run.file moment place).isSome = (run.file 0 place).isSome := by
  induction moment with
  | zero => rfl
  | succ moment ih =>
    rw [← ih, file, file]
    rcases @fs_state_succ _ _ run moment with same | ⟨thread, turn, other, file, _, _, _, written⟩
    · rw [same]
    · rw [written, isSome_fileAt_rewrite]

private theorem file_cases (moment : Nat) (place : List String) : run.file moment place = run.file 0 place ∨
    ∃ thread file, run.requests thread = .rewrite place file ∧ run.file moment place = some file := by
  induction moment with
  | zero => exact .inl rfl
  | succ moment ih =>
    rcases @fs_state_succ _ _ run moment with same | ⟨thread, turn, other, written, _, req, _, rewritten⟩
    · rw [file, same]
      exact ih
    · rw [file, rewritten, fileAt_rewrite]
      split
      · grind
      · exact ih

private theorem exists_file {moment other : Nat} {place : List String} {found : SourceFile}
    (there : run.file moment place = some found) : ∃ file, run.file other place = some file := by
  have always : (run.file other place).isSome = true := by
    rw [isSome_file, ← isSome_file moment, there]
    rfl
  exact Option.isSome_iff_exists.mp always

private theorem fingerprint_of_change (fresh : run.FreshRewrites) (place : List String) (moment : Nat)
    (changed : run.file (moment + 1) place ≠ run.file moment place) (earlier : Nat) (before : earlier ≤ moment) :
    (run.file earlier place).map SourceFile.fingerprint ≠
    (run.file (moment + 1) place).map SourceFile.fingerprint := by
  rcases @fs_state_succ _ _ run moment with same | ⟨thread, turn, other, written, next, req, ready, rewritten⟩
  · exact absurd (by rw [file, file, same]) changed
  -- Only the file that is rewritten can change, to the file that is written.
  have value : run.file (moment + 1) place =
      if other = place ∧ (run.state moment).shared.fs.isFile other = true then some written
        else run.file moment place := by
    rw [file, rewritten, fileAt_rewrite]
    rfl
  by_cases there : other = place ∧ (run.state moment).shared.fs.isFile other = true
  · rw [value, if_pos there]
    cases old : run.file earlier place with
    | none => exact fun impossible => (by cases impossible)
    | some oldFile =>
      intro same
      refine fresh moment thread turn other written next req ready earlier before oldFile ?_ (Option.some.inj same)
      rw [there.1]
      exact old
  · grind

private theorem file_constant (fresh : run.FreshRewrites) {place : List String} {first last : Nat}
    {early late : SourceFile}
    (ordered : first ≤ last) (before : run.file first place = some early) (after : run.file last place = some late)
    (same : early.fingerprint = late.fingerprint) {moment : Nat} (later : first ≤ moment) (sooner : moment ≤ last) :
    run.file moment place = some early := by
  have stamps : (run.file first place).map SourceFile.fingerprint =
      (run.file last place).map SourceFile.fingerprint := by
    grind
  have changes (moment : Nat) := fingerprint_of_change fresh place moment
  rw [← before]
  exact @constant_of_stamp _ _ (fun moment => run.file moment place)
    (Option.map SourceFile.fingerprint) changes _ _ ordered
    stamps _ later sooner

end Files

section Samples

variable {first last : Nat} {place : List String} {source : String} {fingerprint : FileFingerprint}
  {entry : CacheEntry}

/-- A text that a file had is one that it had. -/
theorem HadText.succ (had : run.HadText first last place source) : run.HadText first (last + 1) place source := by
  obtain ⟨moment, file, later, sooner, there, text⟩ := had
  exact ⟨moment, file, later, Nat.le_succ_of_le sooner, there, text⟩

private theorem HadText.of_le {earlier : Nat} (had : run.HadText first last place source)
    (before : earlier ≤ first) :
    run.HadText earlier last place source := by
  obtain ⟨moment, file, later, sooner, there, text⟩ := had
  exact ⟨moment, file, Nat.le_trans before later, sooner, there, text⟩

/-- What was seen was seen. -/
theorem Sampled.succ (sampled : run.Sampled first last place fingerprint source) :
    run.Sampled first (last + 1) place fingerprint source := by
  obtain ⟨seen, file, later, there, same, had⟩ := sampled
  exact ⟨seen, file, later, there, same, had.succ⟩

private theorem Sampled.hadText (sampled : run.Sampled first last place fingerprint source) :
    run.HadText first last place source := by
  obtain ⟨seen, file, later, _, _, had⟩ := sampled
  exact had.of_le later

/-- An entry stays what it is. -/
theorem Entered.succ (entered : run.Entered first last place entry) : run.Entered first (last + 1) place entry := by
  obtain ⟨source, sampled, hash, parsed⟩ := entered
  exact ⟨source, sampled.succ, hash, parsed⟩

private theorem Entered.hadText (fresh : run.FreshRewrites) (entered : run.Entered 0 last place entry) {seen : Nat}
    (sooner : seen ≤ last) (now : ∀ file, run.file seen place = some file → file.fingerprint = entry.fingerprint) :
    ∃ source, run.HadText seen last place source ∧ run.Parsed place source entry.outcome := by
  obtain ⟨source, ⟨noted, early, _, before, same, readAt, text, later, past, there, read⟩, _, parsed⟩ := entered
  refine ⟨source, ?_, parsed⟩
  -- The text was read since, or the file has not changed from the entry's fingerprint up to now.
  rcases Nat.le_total seen readAt with since | sooner'
  · exact ⟨readAt, text, since, past, there, read⟩
  · obtain ⟨current, found⟩ := @exists_file _ _ run noted seen place early before
    have constant {moment : Nat} :=
      @file_constant _ _ run fresh place noted seen early current (Nat.le_trans later sooner') before
      found (same.trans (now current found).symm) moment
    have unchanged : early = text := by
      have at_read := constant later sooner'
      rw [there] at at_read
      exact (Option.some.inj at_read).symm
    rw [← unchanged] at read
    exact ⟨seen, early, Nat.le_refl seen, sooner, constant (Nat.le_trans later sooner') (Nat.le_refl seen), read⟩

end Samples

section Steps

variable {first moment : Nat} {path : RawPath} {thread : ι} {turn : Turn}

/-- What a call has seen it has seen. -/
theorem CallOk.succ {last : Nat} {point : CachePoint} (ok : run.CallOk first last path point) :
    run.CallOk first (last + 1) path point := by
  have seen {place : List String} {fingerprint : FileFingerprint} (known : ∃ seen, first ≤ seen ∧ seen ≤ last ∧
      ∀ file, run.file seen place = some file → file.fingerprint = fingerprint) :
      ∃ seen, first ≤ seen ∧ seen ≤ last + 1 ∧ ∀ file, run.file seen place = some file →
        file.fingerprint = fingerprint := by
    obtain ⟨seen, later, sooner, same⟩ := known
    exact ⟨seen, later, Nat.le_succ_of_le sooner, same⟩
  cases point with
  | statted | missed =>
    obtain ⟨place, reached, same, known⟩ := ok
    exact ⟨place, reached, same, seen known⟩
  | loaded | parsing =>
    obtain ⟨place, reached, same, sampled⟩ := ok
    exact ⟨place, reached, same, sampled.succ⟩
  | inserting key entry =>
    obtain ⟨place, reached, same, entered⟩ := ok
    exact ⟨place, reached, same, entered.succ⟩
  | answered result =>
    cases result with
    | error error => trivial
    | ok outcome =>
      obtain ⟨place, source, reached, had, parsed⟩ := ok
      exact ⟨place, source, reached, had.succ, parsed⟩
  | _ => exact ok

variable {entry : CacheEntry} {key : RawPath} {fingerprint : FileFingerprint} {point : CachePoint}

/-- The entry under the key of a call is one of its place. -/
theorem EntriesOk.entered {shared : Shared} {last : Nat} (entries : run.EntriesOk last shared) {place : List String}
    (reached : run.fs.resolve path = some place)
    (found : shared.inner[RawPath.components ⟨true, place⟩]? = some entry) : run.Entered 0 last place entry := by
  obtain ⟨other, same, entered⟩ := entries _ entry found
  rw [components_canonical (isPlace_of_resolve reached)] at same
  cases same
  exact entered

private theorem callOk_located (now : first ≤ moment) (ok : run.CallOk first moment path (.located key)) :
    run.CallOk first (moment + 1) path
      (getOrParse run.ruff turn path (run.state moment).shared (.located key)).2 := by
  have same : key = canonicalise run.fs path := ok
  simp only [getOrParse]
  split
  · trivial
  · rename_i fingerprint found
    obtain ⟨place, reached, value⟩ := Option.map_eq_some_iff.mp found
    rw [resolve_state, same, resolve_canonicalise] at reached
    refine ⟨place, reached, same.trans (canonicalise_of_resolve reached), moment, now, Nat.le_succ moment, ?_⟩
    intro current there
    rw [show fileAt (run.state moment).shared.fs place = some current from there] at value
    exact value

private theorem callOk_statted (fresh : run.FreshRewrites)
    (entries : run.EntriesOk moment (run.state moment).shared)
    (ok : run.CallOk first moment path (.statted key fingerprint)) :
    run.CallOk first (moment + 1) path
      (getOrParse run.ruff turn path (run.state moment).shared (.statted key fingerprint)).2 := by
  have kept : run.CallOk first (moment + 1) path (.missed key fingerprint) :=
    @CallOk.succ _ _ run _ _ _ (.missed _ _) ok
  obtain ⟨place, reached, rfl, seen, later, sooner, known⟩ := ok
  simp only [getOrParse]
  split
  · rename_i entry found
    split
    · rename_i same
      have entered := entries.entered reached found
      rw [← same] at known
      obtain ⟨source, had, parsed⟩ := entered.hadText fresh sooner known
      exact ⟨place, source, reached, (had.of_le later).succ, parsed⟩
    · exact kept
  · exact kept

private theorem callOk_missed (ok : run.CallOk first moment path (.missed key fingerprint)) :
    run.CallOk first (moment + 1) path
      (getOrParse run.ruff turn path (run.state moment).shared (.missed key fingerprint)).2 := by
  obtain ⟨place, reached, rfl, seen, later, sooner, known⟩ := ok
  simp only [getOrParse]
  split
  · trivial
  · rename_i source found
    obtain ⟨other, there, read⟩ := Option.bind_eq_some_iff.mp found
    rw [resolve_state, resolve_canonical reached] at there
    cases there
    obtain ⟨current, now, text⟩ := Option.bind_eq_some_iff.mp read
    -- What is a file now was one when the fingerprint was seen.
    obtain ⟨early, before⟩ := @exists_file _ _ run moment seen place current now
    exact ⟨place, reached, rfl, seen, early, later, before, known early before, moment, current, sooner,
      Nat.le_succ moment, now,
      text⟩

private theorem callOk_loaded {source : String} (apart : run.HashesApart)
    (entries : run.EntriesOk moment (run.state moment).shared)
    (ok : run.CallOk first moment path (.loaded key fingerprint source)) : run.CallOk first (moment + 1) path
      (getOrParse run.ruff turn path (run.state moment).shared (.loaded key fingerprint source)).2 := by
  have kept : run.CallOk first (moment + 1) path (.parsing key fingerprint source) :=
    @CallOk.succ _ _ run _ _ _ (.parsing _ _ _) ok
  obtain ⟨place, reached, rfl, sampled⟩ := ok
  simp only [getOrParse]
  split
  · rename_i entry found
    split
    · rename_i same
      obtain ⟨other, earlier, hash, parsed⟩ := entries.entered reached found
      obtain ⟨_, firstFile, _, _, firstThere, firstText⟩ := earlier.hadText
      obtain ⟨_, secondFile, _, _, secondThere, secondText⟩ := sampled.hadText
      have text : other = source :=
        apart place _ _ firstFile secondFile other source firstThere secondThere firstText secondText
        (hash.symm.trans same)
      rw [text] at parsed
      exact ⟨place, reached, rfl, source, sampled.succ, same, parsed⟩
    · exact kept
  · exact kept

private theorem callOk_parsing {source : String}
    (next : run.events[moment]? = some (thread, turn))
    (ok : run.CallOk first moment path (.parsing key fingerprint source)) :
    run.CallOk first (moment + 1) path
      (getOrParse run.ruff turn path (run.state moment).shared (.parsing key fingerprint source)).2 := by
  obtain ⟨place, reached, rfl, sampled⟩ := ok
  simp only [getOrParse]
  split
  · trivial
  · rename_i outcome parsed
    exact ⟨place, reached, rfl, source, sampled.succ, rfl, (thread, turn), List.mem_of_getElem? next, parsed⟩

private theorem inner_cacheStep {ruff : Ruff} {shards : Nat} {shardOf : List String → Nat} {req : CacheRequest}
    {shared : Shared} {key : List String}
    (found : (cacheStep ruff shards shardOf req turn shared point).1.inner[key]? = some entry) :
    shared.inner[key]? = some entry ∨
      ∃ path raw, req = .getOrParse path ∧ point = .inserting raw entry ∧ key = raw.components := by
  cases req with
  | getOrParse path =>
    cases point with
    | inserting raw inserted =>
      rw [show (cacheStep ruff shards shardOf (.getOrParse path) turn shared (.inserting raw inserted)).1.inner =
        shared.inner.insert raw.components inserted from rfl, ExtTreeMap.getElem?_insert] at found
      split at found
      · grind
      · exact .inl found
    | _ =>
      left
      simp only [cacheStep, getOrParse] at found
      repeat' split at found
      all_goals exact found
  | invalidate path =>
    cases point with
    | forgetting raw =>
      rw [show (cacheStep ruff shards shardOf (.invalidate path) turn shared (.forgetting raw)).1.inner =
        shared.inner.erase raw.components from rfl, ExtTreeMap.getElem?_erase] at found
      split at found
      · cases found
      · exact .inl found
    | _ => exact .inl found
  | clear =>
    cases point with
    | clearing left =>
      cases left with
      | zero => exact .inl found
      | succ left =>
        rw [show (cacheStep ruff shards shardOf .clear turn shared (.clearing (left + 1))).1.inner =
          shared.inner.filter (fun key _ => shardOf key ≠ left) from rfl, ExtTreeMap.getElem?_filter'] at found
        exact .inl (Option.eq_some_of_filter_eq_some found)
    | _ => exact .inl found
  | rewrite place file =>
    cases point with
    | ready => exact .inl found
    | _ => exact .inl found

/-- Entries are made of what files were, and all calls have seen their files. -/
structure Sound (run : CacheRun ι) (moment : Nat) (state : State ι Shared CachePoint) : Prop where
  entries : run.EntriesOk moment state.shared
  calls : ∀ thread path, run.requests thread = .getOrParse path → run.CallOk 0 moment path (state.points thread)

variable (fresh : run.FreshRewrites) (apart : run.HashesApart)

include fresh apart

/-- A turn of a call keeps what is known of it, point by point. -/
private theorem callOk_step (entries : run.EntriesOk moment (run.state moment).shared)
    (next : run.events[moment]? = some (thread, turn)) (now : first ≤ moment)
    (ok : run.CallOk first moment path point) :
    run.CallOk first (moment + 1) path (getOrParse run.ruff turn path (run.state moment).shared point).2 := by
  cases point with
  | ready =>
    show canonicalise (run.state moment).shared.fs path = canonicalise run.fs path
    rw [canonicalise, FileSystem.canonicalize, resolve_state]
    rfl
  | located key => exact callOk_located now ok
  | statted key fingerprint => exact callOk_statted fresh entries ok
  | missed key fingerprint => exact callOk_missed ok
  | loaded key fingerprint source => exact callOk_loaded apart entries ok
  | parsing key fingerprint source => exact callOk_parsing next ok
  | inserting key entry =>
    obtain ⟨place, reached, _, source, sampled, _, parsed⟩ := ok
    exact ⟨place, source, reached, sampled.hadText.succ, parsed⟩
  | answered result => exact ok.succ
  | forgetting | clearing | finished => trivial

private theorem callOk_turn {event : ι × Turn} (entries : run.EntriesOk moment (run.state moment).shared)
    (next : run.events[moment]? = some event) (now : first ≤ moment)
    (call : run.requests thread = .getOrParse path)
    (ok : run.CallOk first moment path ((run.state moment).points thread)) :
    run.CallOk first (moment + 1) path
      ((Interleaving.turn (cacheProgram run.ruff run.shards run.shardOf run.requests)
        (run.state moment) event).points thread) := by
  by_cases own : thread = event.1
  · rw [own, turn_points_self, cacheProgram, ← own, call]
    exact callOk_step fresh apart entries next now ok
  · rw [turn_points_of_ne own]
    exact ok.succ

/-- At every moment entries are made of what files were. -/
theorem sound (moment : Nat) : run.Sound moment (run.state moment) := by
  refine @stateAt_invariant _ _ _ _ _ _ _ _ run.Sound 0 ?_ ?_ ?_ moment (Nat.zero_le moment)
  · -- The table is empty at first.
    refine ⟨fun key entry found => ?_, fun thread path _ => trivial⟩
    have nothing : (∅ : ExtTreeMap (List String) CacheEntry)[key]? = some entry := found
    rw [ExtTreeMap.getElem?_empty] at nothing
    cases nothing
  · intro moment event _ next before
    refine ⟨fun key entry found => ?_, fun thread path call => ?_⟩
    · rcases inner_cacheStep found with there | ⟨path, raw, call, point, same⟩
      · obtain ⟨place, named, entered⟩ := before.entries key entry there
        exact ⟨place, named, entered.succ⟩
      · have ok := before.calls event.1 path call
        rw [point] at ok
        obtain ⟨place, reached, rfl, source, sampled, hash, parsed⟩ := ok
        refine ⟨place, ?_, source, sampled.succ, hash, parsed⟩
        rw [same, components_canonical (isPlace_of_resolve reached)]
    · exact callOk_turn fresh apart before.entries next (Nat.zero_le moment) call (before.calls thread path call)
  · intro moment state before
    refine ⟨fun key entry found => ?_, fun thread path call => (before.calls thread path call).succ⟩
    obtain ⟨place, named, entered⟩ := before.entries key entry found
    exact ⟨place, named, entered.succ⟩

private theorem callOk_since {last : Nat} (call : run.requests thread = .getOrParse path)
    (begun : (run.state first).points thread = .ready) (later : first ≤ last) :
    run.CallOk first last path ((run.state last).points thread) := by
  refine @stateAt_invariant _ _ _ _ _ _ _ _
    (fun moment state => run.CallOk first moment path (state.points thread)) first
    ?_ ?_ ?_ last later
  · show run.CallOk first first path ((run.state first).points thread)
    rw [begun]
    trivial
  · intro moment event now next ok
    exact callOk_turn fresh apart (sound fresh apart moment).entries next now call ok
  · exact fun moment state ok => ok.succ

end Steps

end CacheRun

section Runs

variable {ι : Type} [DecidableEq ι] {run : CacheRun ι}

/-- Whatever turns calls, drops and rewrites take: if every rewrite brings a new fingerprint and no two texts
of a file have the same hash, a call that succeeds returns what was made of a text that its file had at some
moment during the call. -/
theorem cache_never_stale (fresh : run.FreshRewrites) (apart : run.HashesApart) {thread : ι} {path : RawPath}
    {first last : Nat}
    {outcome : ParseOutcome} (call : run.requests thread = .getOrParse path)
    (begun : (run.state first).points thread = .ready)
    (later : first ≤ last) (ended : (run.state last).points thread = .answered (.ok outcome)) :
    ∃ (moment : Nat) (place : List String) (file : SourceFile) (source : String), first ≤ moment ∧ moment ≤ last ∧
      (run.state moment).shared.fs.resolve path = some place ∧ run.file moment place = some file ∧
      file.text = some source ∧
      ∃ event ∈ run.events, parseDagFile run.ruff event.2 ⟨true, place⟩ source (hashSource source) =
        .ok outcome := by
  have ok := CacheRun.callOk_since fresh apart call begun later
  rw [ended] at ok
  obtain ⟨place, source, reached, ⟨moment, file, after, before, there, text⟩, parsed⟩ := ok
  exact ⟨moment, place, file, source, after, before, (CacheRun.resolve_state moment path).trans reached,
    there, text, parsed⟩

/-- What a call has returned. -/
def CachePoint.returned : CachePoint → Option ParseOutcome
  | .answered (.ok outcome) => some outcome
  | _ => none

/-- A call has returned exactly if it has been answered. -/
theorem CachePoint.returned_eq_some {point : CachePoint} {outcome : ParseOutcome}
    (returned : point.returned = some outcome) :
    point = .answered (.ok outcome) := by
  unfold CachePoint.returned at returned
  split at returned
  · cases returned
    rfl
  · cases returned

/-- A turn in which everything can be started. -/
def plainTurn : Turn := ⟨none, none, 0, (0, 0)⟩

/-- A file before and after it is rewritten. -/
def emptyFile : SourceFile := ⟨some 1, []⟩

/-- A file with other contents. -/
def changedFile : SourceFile := ⟨some 2, [120]⟩

/-- A file that is rewritten after a call has seen its fingerprint and before it is read. -/
def rewrittenRun : CacheRun Bool where
  ruff := .reading "x" [.expr (.name ⟨0, 1⟩ "x")]
  shards := 1
  shardOf := fun _ => 0
  requests := fun writer => if writer then .rewrite ["a.py"] changedFile else .getOrParse ⟨true, ["a.py"]⟩
  fs := (FileSystem.empty SourceFile).add ["a.py"] (.file emptyFile)
  events := [false, false, true, false, false, false, false, false].map fun writer => (writer, plainTurn)

private theorem freshRewrites_rewrittenRun : rewrittenRun.FreshRewrites := by
  intro moment thread turn place file next req ready earlier sooner old there
  obtain ⟨turns, before, changed⟩ : (∀ moment < 8, moment ≠ 2 →
    (rewrittenRun.events[moment]?).map Prod.fst ≠ some true) ∧
      (∀ moment ≤ 2, (rewrittenRun.file moment ["a.py"]).map SourceFile.fingerprint = some emptyFile.fingerprint) ∧
      emptyFile.fingerprint ≠ changedFile.fingerprint := by
    decide +kernel
  cases thread with
  | false => cases req
  | true =>
    cases req
    have third : moment = 2 := by
      by_contra other
      refine turns moment ?_ other (by rw [next]; rfl)
      exact (List.getElem?_eq_some_iff.mp next).1
    have same := before earlier (by omega)
    rw [there, Option.map_some, Option.some.injEq] at same
    rw [same]
    exact changed

private theorem hashesApart_rewrittenRun : rewrittenRun.HashesApart := by
  have evaluated : ((rewrittenRun.file 0 ["a.py"]).bind SourceFile.text) = some "" ∧ changedFile.text = some "x" ∧
      hashSource "" ≠ hashSource "x" := by
    decide +kernel
  obtain ⟨emptyText, changedText, hashes⟩ := evaluated
  -- A file is as at the beginning, or it is the one that was written.
  have texts {place : List String} {moment : Nat} {file : SourceFile} {text : String}
      (there : rewrittenRun.file moment place = some file) (read : file.text = some text) :
      (rewrittenRun.file 0 place).bind SourceFile.text = some text ∨ place = ["a.py"] ∧ text = "x" := by
    rcases rewrittenRun.file_cases moment place with same | ⟨thread, written, req, now⟩
    · grind
    · cases thread with
      | false => cases req
      | true =>
        cases req
        cases there.symm.trans now
        exact .inr ⟨rfl, Option.some.inj (read.symm.trans changedText)⟩
  intro place first second firstFile secondFile firstText secondText firstThere secondThere firstRead secondRead same
  rcases texts firstThere firstRead with initial | ⟨here, written⟩
  · rcases texts secondThere secondRead with initial' | ⟨here, written⟩
    · grind
    · grind
  · rcases texts secondThere secondRead with initial' | ⟨_, written'⟩
    · grind
    · rw [written, written']

/-- The call returns what was made of a text that the file had in the meantime. -/
theorem cache_never_stale_rewritten :
    ∃ (outcome : ParseOutcome) (moment : Nat) (file : SourceFile) (source : String),
      (rewrittenRun.state 8).points false = .answered (.ok outcome) ∧ moment ≤ 8 ∧
      rewrittenRun.file moment ["a.py"] = some file ∧ file.text = some source ∧
        outcome.sourceHash = hashSource source := by
  obtain ⟨returned, canonical⟩ : ((rewrittenRun.state 8).points false).returned.isSome = true ∧
      rewrittenRun.fs.resolve ⟨true, ["a.py"]⟩ = some ["a.py"] := by
    decide +kernel
  obtain ⟨outcome, returned⟩ := Option.isSome_iff_exists.mp returned
  have ended := CachePoint.returned_eq_some returned
  obtain ⟨moment, place, file, source, _, sooner, reached, there, text, event, _, parsed⟩ :=
    @cache_never_stale _ _ rewrittenRun freshRewrites_rewrittenRun hashesApart_rewrittenRun false _ 0
      8 outcome rfl rfl
      (by decide) ended
  rw [CacheRun.resolve_state, canonical] at reached
  cases reached
  obtain ⟨dags, _, made⟩ := bind_eq_ok.mp parsed
  cases made
  exact ⟨_, moment, file, source, ended, sooner, there, text, rfl⟩

end Runs

end FerroProtocols.Airflow
