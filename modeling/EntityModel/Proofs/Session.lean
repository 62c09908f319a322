import EntityModel.Proofs.ParseCache
import EntityModel.Store

/-!
# Partial reloads and edits

A session is a store over files in memory, which are edited between its runs. A run of changed files
reads no others again, so a file it is not told of must be up to date in the cache.

`run_ends_as_fresh`: in every history whose partial runs are told of all files edited since the run
before, each run ends as a new store would end on the files it sees, and it sees the files as they are if
and only if it is told of the outdated files that an earlier full run has skipped. A full run skips files
when it stops at one that cannot be read: those behind it keep the parse of an older text, although the
run counts as having covered their edits.

The invariant is `Follows`: a cached file that is neither pending nor skipped has the current text.
-/

namespace EntityModel

/-! ### Sessions -/

/-- What happens to a store over files in memory: an edit, or a run. A run of `some changed` reads no
files but those again, and a run of `none` reads all. -/
inductive Step where
  | put (id : FileId) (text : String)
  | remove (id : FileId)
  | run (changed : Option (List FileId))

/-- A store over files in memory. -/
structure Session where
  store : Store
  files : SortedMap FileId String

namespace Session

/-- The session after a run, and how the run ends. -/
def run (s : Session) (changed : Option (List FileId)) : Store × Except Fault Outcome :=
  s.store.run (.ofFiles s.files) changed

def step (s : Session) : Step → Session
  | .put id text => { s with files := s.files.insert id text }
  | .remove id => { s with files := s.files.erase id }
  | .run changed => { s with store := (s.run changed).1 }

/-- The files as a run sees them. -/
def filesSeen (s : Session) (changed : Option (List FileId)) : SortedMap FileId String :=
  s.store.cache.filesSeen changed s.files

/-- The cache holds a file as the parse of a text other than its current one. -/
def IsOutdated (s : Session) (id : FileId) : Prop :=
  ∃ file text, s.store.cache.files.get? id = some file ∧ s.files.get? id = some text ∧ file.text ≠ text

end Session

/-- A run is told of a file: it reads all files, or the file is among those it is to read. -/
def Tells (changed : Option (List FileId)) (id : FileId) : Prop := ∀ ids, changed = some ids → id ∈ ids

theorem isUnchanged_eq_false_iff {changed : Option (List FileId)} {id : FileId} :
    ParseCache.isUnchanged changed id = false ↔ Tells changed id := by
  cases changed <;> simp [ParseCache.isUnchanged, Tells]

/-! ### How runs end -/

/-- What a model says, its version aside. -/
structure Model.Contents where
  classes : List Class
  domains : SortedMap String Domain
  files : List FileId
  warnings : List Diagnostic
deriving DecidableEq

def Model.contents (m : Model) : Model.Contents := ⟨m.classes, m.domains, m.files, m.warnings⟩

/-- How a run ends: with a model that the store serves from then on, with diagnostics that keep the model
from being published, or with a fault. -/
inductive Ending where
  | published (served : Option Model.Contents)
  | rejected (diagnostics : List Diagnostic)
  | failed (fault : Fault)
deriving DecidableEq

namespace Ending

/-- The ending of a run, from the store after it and its outcome. -/
def of : Store × Except Fault Outcome → Ending
  | (_, .error fault) => .failed fault
  | (store, .ok (.published _ _)) => .published (store.current.map Model.contents)
  | (store, .ok (.rejected _)) => .rejected store.diagnostics

/-- The ending of the first run of a new store. -/
def fresh (settings : Settings) (files : SortedMap FileId String) : Ending :=
  of (({ settings } : Store).reload (.ofFiles files))

/-- The ending of a run, from what it resolves to. -/
def ofResult : Except Fault Resolution → Ending
  | .error fault => .failed fault
  | .ok ⟨some model, _⟩ => .published (some model.contents)
  | .ok ⟨none, diagnostics⟩ => .rejected diagnostics

theorem of_run (store : Store) (sources : Sources) (changed : Option (List FileId)) :
    of (store.run sources changed)
      = ofResult (Resolution.run sources store.settings changed (store.version + 1) store.cache).2 := by
  unfold Store.run
  rcases Resolution.run sources store.settings changed (store.version + 1) store.cache with
    ⟨cache, fault | ⟨_ | model, diagnostics⟩⟩ <;> rfl

theorem ofResult_ofFiles_version (settings : Settings) (version version' : Nat) (files : List LoadedFile) :
    ofResult (Resolution.ofFiles settings version files)
      = ofResult (Resolution.ofFiles settings version' files) := by
  unfold Resolution.ofFiles
  rcases LoadOrder.order files with fault | ordered
  · rfl
  · simp only [bind, Except.bind]
    rcases Graph.bind ordered with fault | ⟨g, problems⟩
    · rfl
    · simp only [Resolution.ofGraph, bind, Except.bind]
      rcases ((g.expandAliases settings).1.bindForeignKeys settings).1.checkUniqueKeys with fault | ⟨⟩
      · rfl
      · dsimp only [pure, Except.pure]
        split <;> rfl

theorem of_run_eq {store : Store} (hsettings : store.settings.validate = .ok ())
    (hvalid : store.cache.Valid) (sources : Sources) (changed : Option (List FileId)) (version : Nat) :
    of (store.run sources changed)
      = ofResult (((store.cache.sourcesSeen changed sources).readNewAll store.settings).bind
          (Resolution.ofFiles store.settings version)) := by
  rw [of_run]
  simp only [Resolution.run, hsettings, ParseCache.readAll_snd _ _ _ hvalid]
  rcases (store.cache.sourcesSeen changed sources).readNewAll store.settings with fault | files
  · rfl
  · exact ofResult_ofFiles_version _ _ _ _

end Ending

theorem Session.ending_run {s : Session} (hsettings : s.store.settings.validate = .ok ())
    (hvalid : s.store.cache.Valid) (changed : Option (List FileId)) :
    Ending.of (s.run changed) = Ending.fresh s.store.settings (s.filesSeen changed) := by
  have hfresh := @Ending.of_run_eq { settings := s.store.settings } hsettings
    ParseCache.valid_empty (.ofFiles (s.filesSeen changed)) none 0
  rw [ParseCache.sourcesSeen_none, Session.filesSeen, ParseCache.readNewAll_filesSeen] at hfresh
  exact (Ending.of_run_eq hsettings hvalid _ _ 0).trans hfresh.symm

/-! ### What runs leave in the cache -/

theorem Store.create_eq_ok {settings : Settings} {store : Store} (h : create settings = .ok store) :
    settings.validate = .ok () ∧ store = { settings } := by
  unfold create at h
  rcases hvalid : settings.validate with fault | ⟨⟩
  · simp [hvalid, Except.map] at h
  · simp only [hvalid, Except.map, Except.ok.injEq] at h
    exact ⟨rfl, h.symm⟩

theorem Store.run_settings (store : Store) (sources : Sources) (changed : Option (List FileId)) :
    (store.run sources changed).1.settings = store.settings := by
  unfold Store.run
  split <;> rfl

theorem Store.cached_run {store : Store} (hsettings : store.settings.validate = .ok ()) {sources : Sources}
    {changed : Option (List FileId)} {id : FileId} {file : LoadedFile}
    (hcached : (store.run sources changed).1.cache.files.get? id = some file) :
    (store.cache.readAll sources store.settings changed).1.files.get? id = some file
      ∧ ∀ ids, changed = some ids → id ∈ ids →
        ∃ files, (store.cache.readAll sources store.settings changed).2 = .ok files := by
  unfold Store.run at hcached
  simp only [Resolution.run, hsettings] at hcached
  generalize store.cache.readAll sources store.settings changed = answer at hcached ⊢
  obtain ⟨cache, fault | files⟩ := answer
  · simp only [Except.bind, Store.failed, ParseCache.get?_foldl_invalidate] at hcached
    split at hcached
    · simp at hcached
    · next hmem =>
      refine ⟨hcached, fun ids hchanged hid => absurd ?_ hmem⟩
      rwa [hchanged]
  · refine ⟨?_, fun _ _ _ => ⟨files, rfl⟩⟩
    simp only [Except.bind] at hcached ⊢
    generalize Resolution.ofFiles store.settings (store.version + 1) files = result at hcached
    rcases result with fault | ⟨_ | model, problems⟩
    · simp only [Store.failed, ParseCache.get?_foldl_invalidate] at hcached
      split at hcached
      · simp at hcached
      · exact hcached
    · exact hcached
    · exact hcached

/-- A file that a reading has come to is as it is in memory, or has been used again unread. -/
theorem ParseCache.current_or_reused {cache : ParseCache} (hvalid : cache.Valid) {settings : Settings}
    {files : SortedMap FileId String} {changed : Option (List FileId)} {id : FileId} {file : LoadedFile}
    (hfile : (cache.sourcesSeen changed (.ofFiles files)).readNew settings id = .ok file) :
    files.get? id = some file.text
      ∨ cache.files.get? id = some file ∧ cache.reused? changed id = some file := by
  obtain ⟨-, hread, hparse⟩ := Sources.readNew_eq_ok hfile
  rcases hreused : cache.reused? changed id with _ | old
  · simp only [sourcesSeen, hreused, Sources.ofFiles] at hread
    split at hread
    · next text htext =>
      injection hread with hread
      exact Or.inl (hread ▸ htext)
    · simp at hread
  · simp only [sourcesSeen, hreused] at hread
    injection hread with hread
    have hold := get?_of_reused? hreused
    obtain rfl : old = file := by
      have := hvalid id old hold
      rw [hread, hparse] at this
      injection this with this
      exact this.symm
    exact Or.inr ⟨hold, rfl⟩

theorem ParseCache.cached_readAll {cache : ParseCache} (hvalid : cache.Valid) {settings : Settings}
    (hdeclared : ∀ id file, cache.files.get? id = some file → settings.declares id.module = true)
    {files : SortedMap FileId String} {changed : Option (List FileId)} {id : FileId} {file : LoadedFile}
    (hcached : (cache.readAll (.ofFiles files) settings changed).1.files.get? id = some file) :
    settings.declares id.module = true ∧ id ∈ files.keys
      ∧ (files.get? id = some file.text ∨ cache.files.get? id = some file
        ∧ (cache.reused? changed id = some file
          ∨ id ∉ reached ((cache.sourcesSeen changed (.ofFiles files)).readNew settings)
            (listedIds files.keys))) := by
  have hreads := readAll_spec (.ofFiles files) settings changed hvalid rfl fun _ _ => rfl
  by_cases hreached : id ∈ reached ((cache.sourcesSeen changed (.ofFiles files)).readNew settings)
      (listedIds files.keys)
  · have hmem := mem_of_mem_reached hreached
    have hlisted := mem_listedIds.mp hmem
    have hheld := (hreads.held id hreached).congr (cache.get?_retain_of_mem hmem) rfl
    rcases hresult : (cache.sourcesSeen changed (.ofFiles files)).readNew settings id with fault | result
    · rcases hheld.error fault hresult with hnone | ⟨hsame, hundeclared | ⟨fault, hread⟩⟩
      · simp [hnone] at hcached
      · simp [hdeclared id file (hsame ▸ hcached)] at hundeclared
      · obtain ⟨text, htext⟩ := Option.isSome_iff_exists.mp (SortedMap.get?_isSome_iff.mpr hlisted)
        simp [Sources.ofFiles, htext] at hread
    · rw [hheld.ok result hresult] at hcached
      injection hcached with hcached
      subst hcached
      refine ⟨(Sources.readNew_eq_ok hresult).1, hlisted, ?_⟩
      rcases current_or_reused hvalid hresult with hcurrent | ⟨hold, hreused⟩
      · exact Or.inl hcurrent
      · exact Or.inr ⟨hold, Or.inl hreused⟩
  · rw [hreads.kept id hreached, get?_retain] at hcached
    split at hcached
    · next hmem =>
      exact ⟨hdeclared id file hcached, mem_listedIds.mp hmem, Or.inr ⟨hcached, Or.inr hreached⟩⟩
    · simp at hcached

/-! ### Histories -/

/-- The files that a full run over some files does not come to. -/
def unread (settings : Settings) (files : SortedMap FileId String) : List FileId :=
  (listedIds files.keys).filter
    (· ∉ reached ((Sources.ofFiles files).readNew settings) (listedIds files.keys))

/-- A session with the edits that its runs have not taken in: of the files that were edited since the last
run, and of those that a full run has skipped since they were edited. -/
structure History where
  session : Session
  edited : List FileId := []
  skipped : List FileId := []

namespace History

/-- The history of a store over files with some contents, before the first step. -/
def start (store : Store) (contents : List (FileId × String)) : History where
  session := { store, files := SortedMap.ofList contents }

/-- The history after a step. A full run covers all edits, but skips the files that it does not come to. -/
def step (h : History) (step : Step) : History where
  session := h.session.step step
  edited := match step with
    | .put id _ | .remove id => id :: h.edited
    | .run _ => []
  skipped := match step with
    | .put _ _ | .remove _ => h.skipped
    | .run none =>
      (h.edited ++ h.skipped).filter (· ∈ unread h.session.store.settings h.session.files)
    | .run (some changed) => h.skipped.filter (· ∉ changed)

def after (h : History) (steps : List Step) : History := steps.foldl step h

/-- Every run among the steps is told of all files edited since the run before. -/
def Covered (h : History) : List Step → Prop
  | [] => True
  | .run changed :: steps => (∀ id ∈ h.edited, Tells changed id) ∧ (h.step (.run changed)).Covered steps
  | edit :: steps => (h.step edit).Covered steps

/-- The invariant of a history: what its store has cached of a file with no edits left is the parse of its
current text. -/
structure Follows (settings : Settings) (h : History) : Prop where
  configured : h.session.store.settings = settings
  sorted : h.session.files.Sorted
  valid : h.session.store.cache.Valid
  declared : ∀ id file, h.session.store.cache.files.get? id = some file → settings.declares id.module = true
  current : ∀ id file, h.session.store.cache.files.get? id = some file → id ∉ h.edited → id ∉ h.skipped →
    h.session.files.get? id = some file.text

theorem follows_start (settings : Settings) (contents : List (FileId × String)) :
    Follows settings (start { settings } contents) where
  configured := rfl
  sorted := SortedMap.sorted_ofList contents
  valid := ParseCache.valid_empty
  declared id file hfile := by simp [start] at hfile
  current id file hfile := by simp [start] at hfile

variable {settings : Settings} {h : History}

theorem Follows.put (hfollows : Follows settings h) (id : FileId) (text : String) :
    Follows settings (h.step (.put id text)) where
  configured := hfollows.configured
  sorted := hfollows.sorted.insert id text
  valid := hfollows.valid
  declared := hfollows.declared
  current other file hfile hedited hskipped := by
    obtain ⟨hne, hedited⟩ := not_or.mp (mt List.mem_cons.mpr hedited)
    rw [← hfollows.current other file hfile hedited hskipped]
    exact SortedMap.get?_insert_of_ne _ _ (Ne.symm hne)

theorem Follows.remove (hfollows : Follows settings h) (id : FileId) :
    Follows settings (h.step (.remove id)) where
  configured := hfollows.configured
  sorted := hfollows.sorted.erase id
  valid := hfollows.valid
  declared := hfollows.declared
  current other file hfile hedited hskipped := by
    obtain ⟨hne, hedited⟩ := not_or.mp (mt List.mem_cons.mpr hedited)
    rw [← hfollows.current other file hfile hedited hskipped]
    exact SortedMap.get?_erase_of_ne _ (Ne.symm hne)

/-- What a run leaves in the cache is, for a file it is told of or came to, the parse of the current text. -/
theorem Follows.cached_run (hfollows : Follows settings h) (hvalid : settings.validate = .ok ())
    {changed : Option (List FileId)} {id : FileId} {file : LoadedFile}
    (hcached : (h.session.run changed).1.cache.files.get? id = some file) :
    settings.declares id.module = true ∧ (h.session.files.get? id = some file.text
      ∨ h.session.store.cache.files.get? id = some file
        ∧ match changed with
          | none => id ∈ unread settings h.session.files
          | some ids => id ∉ ids) := by
  obtain ⟨rfl, hsorted, hcache, hdeclared, -⟩ := hfollows
  obtain ⟨hread, hloaded⟩ := Store.cached_run hvalid hcached
  obtain ⟨hdecl, hlisted, hcurrent | ⟨hold, hreused⟩⟩ := ParseCache.cached_readAll hcache hdeclared hread
  · exact ⟨hdecl, Or.inl hcurrent⟩
  · refine ⟨hdecl, Or.inr ⟨hold, ?_⟩⟩
    rcases changed with _ | ids
    · rcases hreused with hreused | hskipped
      · simp [ParseCache.reused?, ParseCache.isUnchanged] at hreused
      · rw [ParseCache.sourcesSeen_none] at hskipped
        simpa [unread, hlisted] using hskipped
    · intro hmem
      rcases hreused with hreused | hskipped
      · simp [ParseCache.reused?, ParseCache.isUnchanged, hmem] at hreused
      · obtain ⟨files, hfiles⟩ := hloaded ids rfl hmem
        rw [(ParseCache.readAll_spec _ _ _ hcache rfl fun _ _ => rfl).files] at hfiles
        rw [reached_of_mapM_eq_ok hfiles, mem_listedIds] at hskipped
        exact hskipped hlisted

theorem Follows.run (hfollows : Follows settings h) (hvalid : settings.validate = .ok ())
    {changed : Option (List FileId)} (htold : ∀ id ∈ h.edited, Tells changed id) :
    Follows settings (h.step (.run changed)) where
  configured := (Store.run_settings _ _ _).trans hfollows.configured
  sorted := hfollows.sorted
  valid := by
    intro id file hcached
    obtain ⟨rfl, -⟩ := hfollows
    exact (ParseCache.readAll_spec _ _ _ ‹_› rfl fun _ _ => rfl).valid id file (Store.cached_run hvalid hcached).1
  declared id file hcached := (hfollows.cached_run hvalid hcached).1
  current id file hcached _ hskipped := by
    rcases (hfollows.cached_run hvalid hcached).2 with hcurrent | ⟨hold, hleft⟩
    · exact hcurrent
    · rcases changed with _ | ids
      · simp only [step, List.mem_filter, List.mem_append, decide_eq_true_eq, hfollows.configured,
          hleft, and_true, not_or] at hskipped
        exact hfollows.current id file hold hskipped.1 hskipped.2
      · simp only [step, List.mem_filter, decide_eq_true_eq, not_and, Decidable.not_not] at hskipped
        exact hfollows.current id file hold (fun hmem => hleft (htold id hmem ids rfl))
          fun hmem => hleft (hskipped hmem)

theorem Follows.after (hvalid : settings.validate = .ok ()) {steps : List Step}
    (hfollows : Follows settings h) (hcovered : h.Covered steps) : Follows settings (h.after steps) := by
  induction steps generalizing h with
  | nil => exact hfollows
  | cons step rest ih =>
    cases step with
    | put id text => exact ih (hfollows.put id text) hcovered
    | remove id => exact ih (hfollows.remove id) hcovered
    | run changed => exact ih (hfollows.run hvalid hcovered.1) hcovered.2

theorem covered_append {steps : List Step} {last : Step} (hcovered : h.Covered (steps ++ [last])) :
    h.Covered steps ∧ (h.after steps).Covered [last] := by
  induction steps generalizing h with
  | nil => exact ⟨trivial, hcovered⟩
  | cons step rest ih =>
    cases step with
    | put id text => exact ih hcovered
    | remove id => exact ih hcovered
    | run changed => exact ⟨⟨hcovered.1, (ih hcovered.2).1⟩, (ih hcovered.2).2⟩

theorem Follows.filesSeen_eq_iff (hfollows : Follows settings h) {changed : Option (List FileId)}
    (htold : ∀ id ∈ h.edited, Tells changed id) :
    h.session.filesSeen changed = h.session.files
      ↔ ∀ id ∈ h.skipped, h.session.IsOutdated id → Tells changed id := by
  rw [Session.filesSeen, ParseCache.filesSeen, SortedMap.mapValues_eq_self_iff]
  constructor
  · rintro hseen id - ⟨file, text, hcached, htext, hne⟩
    rw [← isUnchanged_eq_false_iff, Bool.eq_false_iff]
    intro hunchanged
    have := hseen id text (SortedMap.mem_entries_of_get? htext)
    simp only [ParseCache.reused?, hunchanged, if_true, hcached] at this
    exact hne this
  · intro htells id text hmem
    have htext := hfollows.sorted.get?_eq_some_iff.mpr hmem
    by_cases hunchanged : ParseCache.isUnchanged changed id = true
    · have hnot : ¬ Tells changed id := by
        rw [← isUnchanged_eq_false_iff, hunchanged]
        simp
      rcases hcached : h.session.store.cache.files.get? id with _ | file
      · simp [ParseCache.reused?, hcached]
      · simp only [ParseCache.reused?, hunchanged, if_true, hcached]
        refine Decidable.byContradiction fun hne => ?_
        have hskipped : id ∈ h.skipped := Decidable.byContradiction fun hskipped => by
          have hcurrent := hfollows.current id file hcached (fun hmem => hnot (htold id hmem)) hskipped
          rw [htext] at hcurrent
          exact hne (Option.some.inj hcurrent).symm
        exact hnot (htells id hskipped ⟨file, text, hcached, htext, hne⟩)
    · simp [ParseCache.reused?, hunchanged]

/-- **No edit is lost but those that a full run has skipped.** A run whose history is covered ends as a new
store would on the files it sees. These are the files as they are if and only if the run is told of the
outdated files among the skipped ones. -/
theorem run_ends_as_fresh {settings : Settings} {store : Store} (hcreate : Store.create settings = .ok store)
    (contents : List (FileId × String)) (steps : List Step) (changed : Option (List FileId))
    (hcovered : (start store contents).Covered (steps ++ [.run changed])) :
    let h := (start store contents).after steps
    Ending.of (h.session.run changed) = Ending.fresh settings (h.session.filesSeen changed)
      ∧ (h.session.filesSeen changed = h.session.files
        ↔ ∀ id ∈ h.skipped, h.session.IsOutdated id → Tells changed id) := by
  obtain ⟨hvalid, rfl⟩ := Store.create_eq_ok hcreate
  obtain ⟨hbefore, htold, -⟩ := covered_append hcovered
  have hfollows := (follows_start settings contents).after hvalid hbefore
  refine ⟨?_, hfollows.filesSeen_eq_iff htold⟩
  have hending := Session.ending_run ((congrArg Settings.validate hfollows.configured).trans hvalid)
    hfollows.valid changed
  rwa [hfollows.configured] at hending

/-- A history in which a full run stops at the first of two files, both edited since the run before. Then
the first is put right, and only that edit is left to tell of. -/
def stopped : List Step :=
  [.run none, .put ⟨"App", "Data", "A"⟩ "x", .put ⟨"App", "Data", "B"⟩ "x", .run none,
    .put ⟨"App", "Data", "A"⟩ ""]

/-- The files of `stopped`, before its edits. -/
def stoppedFiles : List (FileId × String) := [(⟨"App", "Data", "A"⟩, ""), (⟨"App", "Data", "B"⟩, "")]

theorem covered_stopped :
    (start { settings := { appName := some "App" } } stoppedFiles).Covered
      (stopped ++ [.run (some [⟨"App", "Data", "A"⟩])]) := by
  simp [stopped, Covered, step, start, Tells]

theorem run_ends_as_fresh_stopped :
    let h := (start { settings := { appName := some "App" } } stoppedFiles).after stopped
    Ending.of (h.session.run (some [⟨"App", "Data", "A"⟩]))
        = Ending.fresh { appName := some "App" } (h.session.filesSeen (some [⟨"App", "Data", "A"⟩]))
      ∧ (h.session.filesSeen (some [⟨"App", "Data", "A"⟩]) = h.session.files
        ↔ ∀ id ∈ h.skipped, h.session.IsOutdated id → Tells (some [⟨"App", "Data", "A"⟩]) id) :=
  run_ends_as_fresh rfl stoppedFiles stopped _ covered_stopped

/-- The run after `stopped` publishes a model, from a parse of the second file that is out of date, although
all files edited since the run before were told of. The file as it is does not parse. -/
theorem stopped_run_misses_edit :
    ∃ (settings : Settings) (contents : List (FileId × String)) (steps : List Step)
      (changed : Option (List FileId)),
      let h := (start { settings } contents).after steps
      Store.create settings = .ok { settings }
        ∧ (start { settings } contents).Covered (steps ++ [.run changed])
        ∧ Ending.of (h.session.run changed) ≠ Ending.fresh settings h.session.files := by
  refine ⟨{ appName := some "App" }, stoppedFiles, stopped, some [⟨"App", "Data", "A"⟩],
    rfl, covered_stopped, ?_⟩
  decide +kernel

end History

end EntityModel
