import EntityModel.ParseCache
import EntityModel.Proofs.Fallible
import EntityModel.Proofs.SortedMap

/-!
# Reading through the cache

A cache holds parses of texts, each under the identity of its file (`Valid`). So reading through it is
reading for the first time, only from sources that may be out of date: a file that is used again unread
stands for the text it was parsed from (`sourcesSeen`). What a reading leaves in the cache follows from
what it read: the files it came to have their new parse, the others are as before.
-/

namespace EntityModel

theorem LoadedFile.parse_eq_ok {id : FileId} {text : String} {file : LoadedFile}
    (h : LoadedFile.parse id text = .ok file) : file.id = id ∧ file.text = text := by
  unfold LoadedFile.parse at h
  split at h
  · injection h with h
    subst h
    exact ⟨rfl, rfl⟩
  · simp at h

theorem LoadedFile.declared_of_parse {id : FileId} {text : String} {file : LoadedFile}
    (h : LoadedFile.parse id text = .ok file) : Declaration.File.parse text = .ok file.declared := by
  unfold LoadedFile.parse at h
  split at h
  · next declared hparse =>
    cases h
    exact hparse
  · cases h

/-! ### First readings -/

/-- A listed file, read for the first time. -/
def Sources.readNew (sources : Sources) (settings : Settings) (id : FileId) : Except Fault LoadedFile :=
  if settings.declares id.module then
    match sources.read id with
    | .error fault => .error fault
    | .ok text => LoadedFile.parse id text
  else .error (.undeclaredModule id)

theorem Sources.readNew_eq_ok {sources : Sources} {settings : Settings} {id : FileId} {file : LoadedFile}
    (h : sources.readNew settings id = .ok file) :
    settings.declares id.module = true ∧ sources.read id = .ok file.text
      ∧ LoadedFile.parse id file.text = .ok file := by
  unfold Sources.readNew at h
  split at h
  · next hdeclared =>
    split at h
    · simp at h
    · next text hread =>
      obtain ⟨-, rfl⟩ := LoadedFile.parse_eq_ok h
      exact ⟨hdeclared, hread, h⟩
  · simp at h

/-- The identities that sources list, each once and in increasing order. -/
def listedIds (listed : List FileId) : List FileId :=
  (SortedMap.ofList (listed.map fun id => (id, ()))).keys

theorem nodup_listedIds (listed : List FileId) : (listedIds listed).Nodup :=
  (SortedMap.sorted_ofList _).nodup_keys

@[simp] theorem mem_listedIds {listed : List FileId} {id : FileId} : id ∈ listedIds listed ↔ id ∈ listed := by
  simp [listedIds, Function.comp_def]

/-- All files of the sources, read for the first time. -/
def Sources.readNewAll (sources : Sources) (settings : Settings) : Except Fault (List LoadedFile) :=
  match sources.list with
  | .error fault => .error fault
  | .ok listed => (listedIds listed).mapM (sources.readNew settings)

/-- The files that a reading comes to: those up to the first that cannot be read. -/
def reached (read : FileId → Except Fault LoadedFile) : List FileId → List FileId
  | [] => []
  | id :: ids => id :: match read id with
    | .ok _ => reached read ids
    | .error _ => []

theorem mem_of_mem_reached {read : FileId → Except Fault LoadedFile} {ids : List FileId} {id : FileId}
    (h : id ∈ reached read ids) : id ∈ ids := by
  induction ids with
  | nil => simp [reached] at h
  | cons first rest ih =>
    rw [reached] at h
    rcases List.mem_cons.mp h with rfl | h
    · exact List.mem_cons_self
    · split at h
      · exact List.mem_cons_of_mem _ (ih h)
      · simp at h

theorem reached_of_mapM_eq_ok {read : FileId → Except Fault LoadedFile} {ids : List FileId}
    {files : List LoadedFile} (h : ids.mapM read = .ok files) : reached read ids = ids := by
  induction ids generalizing files with
  | nil => rfl
  | cons id rest ih =>
    obtain ⟨file, others, hread, hrest, -⟩ := mapM_cons_eq_ok h
    simp only [reached, hread, ih hrest]

namespace ParseCache

/-- Every file of the cache is the parse of its text, under the identity it is kept at. -/
def Valid (cache : ParseCache) : Prop :=
  ∀ id file, cache.files.get? id = some file → LoadedFile.parse id file.text = .ok file

theorem valid_empty : ({} : ParseCache).Valid := by
  intro id file h
  simp at h

/-- The file that a reading uses again unread. -/
def reused? (cache : ParseCache) (changed : Option (List FileId)) (id : FileId) : Option LoadedFile :=
  if isUnchanged changed id then cache.files.get? id else none

theorem get?_of_reused? {cache : ParseCache} {changed : Option (List FileId)} {id : FileId}
    {file : LoadedFile} (h : cache.reused? changed id = some file) : cache.files.get? id = some file := by
  unfold reused? at h
  split at h
  · exact h
  · simp at h

/-- The sources as a reading sees them: a file that is used again unread has the text it was parsed
from. -/
def sourcesSeen (cache : ParseCache) (changed : Option (List FileId)) (sources : Sources) : Sources where
  list := sources.list
  read id := match cache.reused? changed id with
    | some file => .ok file.text
    | none => sources.read id

@[simp] theorem sourcesSeen_none (cache : ParseCache) (sources : Sources) :
    cache.sourcesSeen none sources = sources := by
  simp [sourcesSeen, reused?, isUnchanged]

theorem sourcesSeen_read_congr {cache cache' : ParseCache} (changed : Option (List FileId))
    (sources : Sources) {id : FileId} (h : cache'.files.get? id = cache.files.get? id) :
    (cache'.sourcesSeen changed sources).read id = (cache.sourcesSeen changed sources).read id := by
  simp only [sourcesSeen, reused?, h]

theorem get?_foldl_invalidate (cache : ParseCache) (ids : List FileId) (id : FileId) :
    (ids.foldl invalidate cache).files.get? id = if id ∈ ids then none else cache.files.get? id := by
  induction ids generalizing cache with
  | nil => simp
  | cons first rest ih =>
    rw [List.foldl_cons, ih]
    by_cases hfirst : first = id
    · subst hfirst
      simp [invalidate]
    · rw [invalidate, SortedMap.get?_erase_of_ne _ hfirst]
      simp [Ne.symm hfirst]

/-! ### Reading one file -/

@[simp] theorem files_hit (cache : ParseCache) : cache.hit.files = cache.files := rfl

theorem parse_snd (cache : ParseCache) (id : FileId) (text : String) :
    (cache.parse id text).2 = LoadedFile.parse id text := by
  unfold parse
  split <;> next h => exact h.symm

theorem get?_parse_self (cache : ParseCache) (id : FileId) (text : String) :
    (cache.parse id text).1.files.get? id = (LoadedFile.parse id text).toOption := by
  unfold parse
  split <;> next h => simp [h, Except.toOption]

theorem get?_parse_of_ne (cache : ParseCache) {id other : FileId} (text : String) (hne : id ≠ other) :
    (cache.parse id text).1.files.get? other = cache.files.get? other := by
  unfold parse
  split
  · exact SortedMap.get?_insert_of_ne _ _ hne
  · exact SortedMap.get?_erase_of_ne _ hne

theorem load_snd {cache : ParseCache} (hvalid : cache.Valid) (id : FileId) (text : String) :
    (cache.load id text).2 = LoadedFile.parse id text := by
  unfold load
  split
  · next file hfile =>
    split
    · next htext =>
      subst htext
      exact (hvalid id file hfile).symm
    · exact cache.parse_snd id text
  · exact cache.parse_snd id text

theorem get?_load_self {cache : ParseCache} (hvalid : cache.Valid) (id : FileId) (text : String) :
    (cache.load id text).1.files.get? id = (LoadedFile.parse id text).toOption := by
  unfold load
  split
  · next file hfile =>
    split
    · next htext =>
      subst htext
      simp [hvalid id file hfile, hfile, Except.toOption]
    · exact cache.get?_parse_self id text
  · exact cache.get?_parse_self id text

theorem get?_load_of_ne (cache : ParseCache) {id other : FileId} (text : String) (hne : id ≠ other) :
    (cache.load id text).1.files.get? other = cache.files.get? other := by
  unfold load
  split
  · split
    · rfl
    · exact cache.get?_parse_of_ne text hne
  · exact cache.get?_parse_of_ne text hne

/-- What the cache knows of a file after a reading that has come to it. A parse that was made or used
again is there; of a file that does not parse nothing is; where there was no text to parse, nothing has
changed. -/
structure Holds (cache cache' : ParseCache) (sources : Sources) (settings : Settings) (id : FileId)
    (result : Except Fault LoadedFile) : Prop where
  ok : ∀ file, result = .ok file → cache'.files.get? id = some file
  error : ∀ fault, result = .error fault → cache'.files.get? id = none
    ∨ cache'.files.get? id = cache.files.get? id
      ∧ (settings.declares id.module = false ∨ ∃ fault, sources.read id = .error fault)

theorem holds_of_get?_eq_toOption {cache cache' : ParseCache} {sources : Sources} {settings : Settings}
    {id : FileId} {result : Except Fault LoadedFile} (h : cache'.files.get? id = result.toOption) :
    Holds cache cache' sources settings id result where
  ok file hfile := by rw [h, hfile]; rfl
  error fault hfault := Or.inl (by rw [h, hfault]; rfl)

theorem Holds.congr {cache cache' first last : ParseCache} {sources : Sources} {settings : Settings}
    {id : FileId} {result : Except Fault LoadedFile} (h : Holds cache cache' sources settings id result)
    (hbefore : cache.files.get? id = first.files.get? id)
    (hafter : last.files.get? id = cache'.files.get? id) : Holds first last sources settings id result where
  ok file hfile := hafter.trans (h.ok file hfile)
  error fault hfault := by
    rw [hafter, ← hbefore]
    exact h.error fault hfault

variable (sources : Sources) (settings : Settings) (changed : Option (List FileId))

theorem read_eq (cache : ParseCache) (id : FileId) :
    cache.read sources changed id = match cache.reused? changed id with
      | some file => (cache.hit, .ok file)
      | none => match sources.read id with
        | .error fault => (cache, .error fault)
        | .ok text => cache.load id text :=
  rfl

/-- Reading a file of a declared module through the cache is reading it for the first time from the
sources as they are seen. -/
theorem read_snd {settings : Settings} {cache : ParseCache} (hvalid : cache.Valid) {id : FileId}
    (hdeclared : settings.declares id.module = true) :
    (cache.read sources changed id).2 = (cache.sourcesSeen changed sources).readNew settings id := by
  rw [Sources.readNew, if_pos hdeclared, read_eq]
  rcases hreused : cache.reused? changed id with _ | file
  · simp only [sourcesSeen, hreused]
    split
    · rfl
    · exact load_snd hvalid id _
  · simp only [sourcesSeen, hreused]
    exact (hvalid id file (get?_of_reused? hreused)).symm

theorem holds_read {cache : ParseCache} (hvalid : cache.Valid) (id : FileId) :
    Holds cache (cache.read sources changed id).1 sources settings id (cache.read sources changed id).2 := by
  rw [read_eq]
  rcases hreused : cache.reused? changed id with _ | file
  · dsimp only
    split
    · next fault hread =>
      exact ⟨fun _ h => by simp at h, fun _ _ => Or.inr ⟨rfl, Or.inr ⟨fault, hread⟩⟩⟩
    · next text _ =>
      refine holds_of_get?_eq_toOption ?_
      rw [get?_load_self hvalid, load_snd hvalid]
  · exact holds_of_get?_eq_toOption (get?_of_reused? hreused)

theorem get?_read_of_ne {sources : Sources} {changed : Option (List FileId)} (cache : ParseCache)
    {id other : FileId} (hne : id ≠ other) :
    (cache.read sources changed id).1.files.get? other = cache.files.get? other := by
  unfold read
  split
  · rfl
  · split
    · rfl
    · exact cache.get?_load_of_ne _ hne

theorem valid_read {settings : Settings} {cache : ParseCache} (hvalid : cache.Valid) {id : FileId}
    (hdeclared : settings.declares id.module = true) : (cache.read sources changed id).1.Valid := by
  intro other file hfile
  by_cases hne : id = other
  · subst hne
    have hholds := holds_read sources settings changed hvalid id
    rcases hresult : (cache.read sources changed id).2 with fault | result
    · rcases hholds.error fault hresult with hnone | ⟨hsame, -⟩
      · simp [hnone] at hfile
      · exact hvalid id file (hsame ▸ hfile)
    · rw [hholds.ok result hresult] at hfile
      injection hfile with hfile
      subst hfile
      rw [read_snd sources changed hvalid hdeclared] at hresult
      exact (Sources.readNew_eq_ok hresult).2.2
  · exact hvalid other file (by rwa [cache.get?_read_of_ne hne] at hfile)

/-! ### Reading some files -/

/-- What reading some files one after the other gives and leaves in the cache. `fresh` is what reading
them for the first time comes to. -/
structure Reads (cache : ParseCache) (sources : Sources) (settings : Settings)
    (fresh : FileId → Except Fault LoadedFile) (ids : List FileId)
    (answer : ParseCache × Except Fault (List LoadedFile)) : Prop where
  files : answer.2 = ids.mapM fresh
  valid : answer.1.Valid
  kept : ∀ id, id ∉ reached fresh ids → answer.1.files.get? id = cache.files.get? id
  held : ∀ id ∈ reached fresh ids, Holds cache answer.1 sources settings id (fresh id)

section Reads

variable {sources : Sources} {settings : Settings} {fresh : FileId → Except Fault LoadedFile}
  {cache cache' : ParseCache} {id : FileId} {rest : List FileId}

theorem Reads.nil (hvalid : cache.Valid) : Reads cache sources settings fresh [] (cache, .ok []) where
  files := rfl
  valid := hvalid
  kept _ _ := rfl
  held _ hmem := by simp [reached] at hmem

theorem Reads.stop {fault : Fault} (hfirst : fresh id = .error fault) (hvalid : cache'.Valid)
    (hother : ∀ other, id ≠ other → cache'.files.get? other = cache.files.get? other)
    (hholds : Holds cache cache' sources settings id (fresh id)) :
    Reads cache sources settings fresh (id :: rest) (cache', .error fault) := by
  have hreached : reached fresh (id :: rest) = [id] := by rw [reached, hfirst]
  refine ⟨by rw [List.mapM_cons, hfirst]; rfl, hvalid, fun other hmem => ?_, fun other hmem => ?_⟩
  · rw [hreached, List.mem_singleton] at hmem
    exact hother other (Ne.symm hmem)
  · rw [hreached, List.mem_singleton] at hmem
    exact hmem ▸ hholds

/-- The files after the first one leave what the cache knows of it. -/
theorem Reads.cons {file : LoadedFile} {answer : ParseCache × Except Fault (List LoadedFile)}
    (hfirst : fresh id = .ok file) (hid : id ∉ rest)
    (hother : ∀ other, id ≠ other → cache'.files.get? other = cache.files.get? other)
    (hholds : Holds cache cache' sources settings id (fresh id))
    (hrest : Reads cache' sources settings fresh rest answer) :
    Reads cache sources settings fresh (id :: rest) (answer.1, answer.2.map (file :: ·)) := by
  have hreached : reached fresh (id :: rest) = id :: reached fresh rest := by rw [reached, hfirst]
  refine ⟨?_, hrest.valid, fun other hmem => ?_, fun other hmem => ?_⟩
  · rw [hrest.files, List.mapM_cons, hfirst]
    cases rest.mapM fresh <;> rfl
  · rw [hreached] at hmem
    obtain ⟨hne, hlater⟩ := not_or.mp (mt List.mem_cons.mpr hmem)
    rw [hrest.kept other hlater, hother other (Ne.symm hne)]
  · rw [hreached] at hmem
    rcases List.mem_cons.mp hmem with rfl | hlater
    · exact hholds.congr rfl (hrest.kept other fun h => hid (mem_of_mem_reached h))
    · have hne : id ≠ other := fun h => hid (h ▸ mem_of_mem_reached hlater)
      exact (hrest.held other hlater).congr (hother other hne) rfl

end Reads

theorem readEach_spec {cache : ParseCache} (hvalid : cache.Valid) {ids : List FileId} (hnodup : ids.Nodup)
    {fresh : FileId → Except Fault LoadedFile}
    (hfresh : ∀ id ∈ ids, fresh id = (cache.sourcesSeen changed sources).readNew settings id) :
    Reads cache sources settings fresh ids (cache.readEach sources settings changed ids) := by
  induction ids generalizing cache with
  | nil => exact .nil hvalid
  | cons id rest ih =>
    obtain ⟨hid, hrest⟩ := List.nodup_cons.mp hnodup
    have hfirst := hfresh id List.mem_cons_self
    rw [readEach]
    by_cases hdeclared : settings.declares id.module = true
    · have hread := read_snd sources changed hvalid hdeclared
      have hholds := holds_read sources settings changed hvalid id
      have hvalid' := valid_read sources changed hvalid hdeclared
      have hother : ∀ other, id ≠ other →
          (cache.read sources changed id).1.files.get? other = cache.files.get? other :=
        fun _ hne => cache.get?_read_of_ne hne
      rw [if_pos hdeclared]
      rw [← hfirst] at hread
      rw [hread] at hholds
      rcases hresult : cache.read sources changed id with ⟨cache', fault | file⟩
      all_goals simp only [hresult] at hread hholds hvalid' hother
      · exact .stop hread.symm hvalid' hother hholds
      · refine .cons hread.symm hid hother hholds (ih hvalid' hrest fun other hmem => ?_)
        have hne : id ≠ other := fun h => hid (h ▸ hmem)
        rw [hfresh other (List.mem_cons_of_mem _ hmem), Sources.readNew, Sources.readNew,
          sourcesSeen_read_congr changed sources (hother other hne)]
    · rw [Sources.readNew, if_neg hdeclared] at hfirst
      rw [if_neg hdeclared]
      refine .stop hfirst hvalid (fun _ _ => rfl) ⟨fun _ h => by simp [hfirst] at h, fun _ _ => ?_⟩
      exact Or.inr ⟨rfl, Or.inl (by simpa using hdeclared)⟩

/-! ### Reading all files -/

theorem readAll_eq (cache : ParseCache) {listed : List FileId} (hlist : sources.list = .ok listed) :
    cache.readAll sources settings changed
      = (cache.retain (listedIds listed)).readEach sources settings changed (listedIds listed) := by
  simp only [readAll, hlist]
  rfl

theorem get?_retain (cache : ParseCache) (ids : List FileId) (id : FileId) :
    (cache.retain ids).files.get? id = if id ∈ ids then cache.files.get? id else none := by
  rw [retain, SortedMap.get?_filterKeys]
  simp

theorem valid_retain {cache : ParseCache} (hvalid : cache.Valid) (ids : List FileId) :
    (cache.retain ids).Valid := by
  intro id file hfile
  rw [get?_retain] at hfile
  split at hfile
  · exact hvalid id file hfile
  · simp at hfile

theorem get?_retain_of_mem (cache : ParseCache) {ids : List FileId} {id : FileId} (hmem : id ∈ ids) :
    (cache.retain ids).files.get? id = cache.files.get? id := by
  rw [get?_retain, if_pos hmem]

theorem readAll_spec {cache : ParseCache} (hvalid : cache.Valid) {listed : List FileId}
    (hlist : sources.list = .ok listed) {fresh : FileId → Except Fault LoadedFile}
    (hfresh : ∀ id ∈ listed, fresh id = (cache.sourcesSeen changed sources).readNew settings id) :
    Reads (cache.retain (listedIds listed)) sources settings fresh (listedIds listed)
      (cache.readAll sources settings changed) := by
  rw [readAll_eq sources settings changed cache hlist]
  refine readEach_spec sources settings changed (valid_retain hvalid _) (nodup_listedIds listed) ?_
  intro id hmem
  rw [hfresh id (mem_listedIds.mp hmem), Sources.readNew, Sources.readNew,
    sourcesSeen_read_congr changed sources (cache.get?_retain_of_mem hmem)]

/-- **Reading through the cache is a first reading of the sources as they are seen.** -/
theorem readAll_snd {cache : ParseCache} (hvalid : cache.Valid) :
    (cache.readAll sources settings changed).2
      = (cache.sourcesSeen changed sources).readNewAll settings := by
  rcases hlist : sources.list with fault | listed
  · simp only [readAll, Sources.readNewAll, sourcesSeen, hlist]
  · rw [(readAll_spec sources settings changed hvalid hlist fun _ _ => rfl).files]
    simp only [Sources.readNewAll, sourcesSeen, hlist]

theorem parse_of_readAll {cache : ParseCache} (hvalid : cache.Valid) {files : List LoadedFile}
    (h : (cache.readAll sources settings changed).2 = .ok files) {file : LoadedFile} (hfile : file ∈ files) :
    Declaration.File.parse file.text = .ok file.declared := by
  rw [readAll_snd sources settings changed hvalid, Sources.readNewAll] at h
  split at h
  · cases h
  · obtain ⟨id, -, hread⟩ := exists_item_of_mapM h hfile
    exact LoadedFile.declared_of_parse (Sources.readNew_eq_ok hread).2.2

/-! ### Files in memory -/

/-- The files in memory as a reading sees them. -/
def filesSeen (cache : ParseCache) (changed : Option (List FileId)) (files : SortedMap FileId String) :
    SortedMap FileId String :=
  files.mapValues fun id text => match cache.reused? changed id with
    | some file => file.text
    | none => text

theorem readNewAll_filesSeen (cache : ParseCache) (files : SortedMap FileId String) :
    (Sources.ofFiles (cache.filesSeen changed files)).readNewAll settings
      = (cache.sourcesSeen changed (.ofFiles files)).readNewAll settings := by
  simp only [Sources.readNewAll, Sources.ofFiles, sourcesSeen, filesSeen, SortedMap.keys_mapValues]
  refine mapM_congr fun id hmem => ?_
  obtain ⟨text, htext⟩ := Option.isSome_iff_exists.mp
    (SortedMap.get?_isSome_iff.mpr (mem_listedIds.mp hmem))
  rw [Sources.readNew, Sources.readNew]
  simp only [SortedMap.get?_mapValues, htext, Option.map_some]
  cases cache.reused? changed id <;> rfl

/-! ### Histories of a cache -/

/-- What happens to a cache: files are read through it, or it forgets some. -/
inductive Event where
  | readAll (sources : Sources) (settings : Settings) (changed : Option (List FileId))
  | invalidate (id : FileId)
  | clear

def step (cache : ParseCache) : Event → ParseCache
  | .readAll sources settings changed => (cache.readAll sources settings changed).1
  | .invalidate id => cache.invalidate id
  | .clear => cache.clear

def after (events : List Event) : ParseCache := events.foldl step {}

theorem valid_readAll {cache : ParseCache} (hvalid : cache.Valid) :
    (cache.readAll sources settings changed).1.Valid := by
  rcases hlist : sources.list with fault | listed
  · simp only [readAll, hlist]
    exact hvalid
  · exact (readAll_spec sources settings changed hvalid hlist fun _ _ => rfl).valid

theorem valid_invalidate {cache : ParseCache} (hvalid : cache.Valid) (id : FileId) :
    (cache.invalidate id).Valid := by
  intro other file hfile
  by_cases hne : id = other
  · subst hne
    simp [invalidate] at hfile
  · rw [invalidate, SortedMap.get?_erase_of_ne _ hne] at hfile
    exact hvalid other file hfile

theorem valid_clear (cache : ParseCache) : cache.clear.Valid := by
  intro id file hfile
  simp [clear] at hfile

theorem valid_step {cache : ParseCache} (hvalid : cache.Valid) (event : Event) : (cache.step event).Valid := by
  cases event with
  | readAll sources settings changed => exact valid_readAll sources settings changed hvalid
  | invalidate id => exact valid_invalidate hvalid id
  | clear => exact valid_clear cache

theorem valid_after (events : List Event) : (after events).Valid := by
  have hrun : ∀ (events : List Event) (cache : ParseCache), cache.Valid → (events.foldl step cache).Valid := by
    intro events
    induction events with
    | nil => exact fun cache hvalid => hvalid
    | cons event rest ih => exact fun cache hvalid => ih _ (valid_step hvalid event)
  exact hrun events {} valid_empty

theorem mem_keys_readAll {cache : ParseCache} (hvalid : cache.Valid) {files : List LoadedFile}
    (h : (cache.readAll sources settings changed).2 = .ok files) :
    ∃ listed, sources.list = .ok listed
      ∧ ∀ id, id ∈ (cache.readAll sources settings changed).1.files.keys ↔ id ∈ listed := by
  rcases hlist : sources.list with fault | listed
  · simp [readAll, hlist] at h
  · have hreads := readAll_spec sources settings changed hvalid hlist fun _ _ => rfl
    have hall := reached_of_mapM_eq_ok (hreads.files.symm.trans h)
    refine ⟨listed, rfl, fun id => ?_⟩
    rw [← SortedMap.get?_isSome_iff, ← mem_listedIds]
    by_cases hmem : id ∈ listedIds listed
    · obtain ⟨file, hfile⟩ := exists_eq_ok_of_mapM (hreads.files.symm.trans h) hmem
      rw [(hreads.held id (hall.symm ▸ hmem)).ok file hfile]
      exact iff_of_true rfl hmem
    · rw [hreads.kept id (hall.symm ▸ hmem), get?_retain, if_neg hmem]
      exact iff_of_false Bool.noConfusion hmem

/-- **A full reading does not depend on the cache.** Whatever has happened to a cache, reading all files gives
what reading them for the first time does. A reading of any files that ends well leaves in the cache the listed
ones and no others. -/
theorem readAll_after (events : List Event) (sources : Sources) (settings : Settings) :
    ((after events).readAll sources settings none).2 = (({} : ParseCache).readAll sources settings none).2
      ∧ ∀ changed files, ((after events).readAll sources settings changed).2 = .ok files →
        ∃ listed, sources.list = .ok listed
          ∧ ∀ id, id ∈ ((after events).readAll sources settings changed).1.files.keys ↔ id ∈ listed := by
  have hvalid := valid_after events
  refine ⟨?_, fun changed files h => mem_keys_readAll sources settings changed hvalid h⟩
  rw [readAll_snd sources settings none hvalid, readAll_snd sources settings none valid_empty,
    sourcesSeen_none, sourcesSeen_none]

/-- One empty file. -/
def emptyFile : Sources := .ofFiles (.ofList [(⟨"App", "Data", "A"⟩, "")])

/-- A reading of the empty file, which is then to be forgotten. -/
def forgotten : List Event := [.readAll emptyFile {} none, .invalidate ⟨"App", "Data", "A"⟩]

theorem readAll_after_forgotten :
    ∃ files, ((after forgotten).readAll emptyFile {} (some [])).2 = .ok files
      ∧ ∃ listed, emptyFile.list = .ok listed
        ∧ ∀ id, id ∈ ((after forgotten).readAll emptyFile {} (some [])).1.files.keys ↔ id ∈ listed := by
  have hread : (((after forgotten).readAll emptyFile {} (some [])).2.toOption).isSome = true := by
    decide +kernel
  obtain ⟨files, hsome⟩ := Option.isSome_iff_exists.mp hread
  have hfiles := eq_ok_of_toOption hsome
  exact ⟨files, hfiles, (readAll_after forgotten emptyFile {}).2 (some []) files hfiles⟩

end ParseCache

end EntityModel
