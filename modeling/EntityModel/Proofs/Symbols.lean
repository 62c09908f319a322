import EntityModel.Proofs.Arrangement
import EntityModel.Proofs.LoadOrder
import Mathlib.Data.List.TakeWhile

/-!
# Names that are bound

What a batch of files declares under a name, a domain or a class, is a symbol. Symbols are declared in the order they
are met, a file's domains before its classes. While no symbol repeats an earlier one of its kind, the graph holds just
the symbols so far (`Graph.Holds`); the first that does is the fault (`Symbol.FirstRepeated`). So a batch is bound
exactly if neither two classes nor two domains share a name, and then every name leads to its declaration
(`Graph.bind_exact`).
-/

namespace EntityModel

/-! ### Symbols -/

/-- What a file declares under a name. -/
inductive Symbol where
  | domain (file : FileId) (declared : Declaration.Domain)
  | klass (file : FileId) (declared : Declaration.Class)

namespace Symbol

def file : Symbol → FileId
  | domain file _ => file
  | klass file _ => file

def domain? : Symbol → Option (FileId × Declaration.Domain)
  | domain file declared => some (file, declared)
  | klass _ _ => none

def class? : Symbol → Option (FileId × Declaration.Class)
  | domain _ _ => none
  | klass file declared => some (file, declared)

/-- What a symbol is found under: domains and classes may share a name. -/
inductive Key where
  | domain (name : String)
  | klass (name : String)
deriving DecidableEq

def key : Symbol → Key
  | domain _ declared => .domain declared.name.value
  | klass _ declared => .klass declared.name.value

/-- The fault of a symbol that repeats an earlier one. -/
def repeated (first : Symbol) : Symbol → Fault
  | domain file declared => .duplicateDomain declared.name.value first.file file
  | klass file declared => .duplicateClass declared.name.value first.file file

/-- The symbols of a file, its domains before its classes. -/
def ofFile (file : LoadedFile) : List Symbol :=
  file.declared.domains.map (domain file.id) ++ file.declared.classes.map (klass file.id)

def ofFiles (files : List LoadedFile) : List Symbol := files.flatMap ofFile

/-- No two symbols have one key. -/
def Distinct (symbols : List Symbol) : Prop := (symbols.map key).Nodup

/-- A symbol has the key of an earlier one, and before it no two symbols have one key. -/
def FirstRepeated (symbols : List Symbol) (first s : Symbol) : Prop :=
  ∃ before after, symbols = before ++ s :: after ∧ Distinct before ∧ first ∈ before ∧ first.key = s.key

theorem mem_filterMap_class? {symbols : List Symbol} {file : FileId} {c : Declaration.Class} :
    (file, c) ∈ symbols.filterMap class? ↔ klass file c ∈ symbols := by
  refine List.mem_filterMap.trans ⟨?_, fun h => ⟨_, h, rfl⟩⟩
  rintro ⟨_ | _, hmem, ⟨⟩⟩
  exact hmem

theorem Distinct.concat {symbols : List Symbol} (h : Distinct symbols) {s : Symbol} (hs : s.key ∉ symbols.map key) :
    Distinct (symbols ++ [s]) := by
  rw [Distinct, List.map_append, List.map_singleton]
  exact List.nodup_append_comm.mp (List.nodup_cons.mpr ⟨hs, h⟩)

theorem FirstRepeated.append {symbols : List Symbol} {first s : Symbol} (h : FirstRepeated symbols first s)
    (more : List Symbol) : FirstRepeated (symbols ++ more) first s := by
  obtain ⟨before, after, rfl, hbefore, hfirst, hs⟩ := h
  exact ⟨before, after ++ more, by simp, hbefore, hfirst, hs⟩

theorem not_distinct_of_mem {before after : List Symbol} {first s : Symbol} (hfirst : first ∈ before)
    (hs : first.key = s.key) : ¬ Distinct (before ++ s :: after) := by
  rw [Distinct, List.map_append, List.nodup_append]
  rintro ⟨-, -, hapart⟩
  exact hapart _ (List.mem_map_of_mem hfirst) _ (List.mem_map_of_mem List.mem_cons_self) hs

theorem FirstRepeated.not_distinct {symbols : List Symbol} {first s : Symbol} (h : FirstRepeated symbols first s) :
    ¬ Distinct symbols := by
  obtain ⟨before, after, rfl, -, hfirst, hs⟩ := h
  exact not_distinct_of_mem hfirst hs

theorem FirstRepeated.unique {symbols : List Symbol} {first first' s s' : Symbol} (h : FirstRepeated symbols first s)
    (h' : FirstRepeated symbols first' s') : first = first' ∧ s = s' := by
  obtain ⟨before, after, rfl, hbefore, hfirst, hs⟩ := h
  obtain ⟨before', after', hsymbols, hbefore', hfirst', hs'⟩ := h'
  obtain ⟨rfl, rfl⟩ : before = before' ∧ s = s' := by
    rcases List.append_eq_append_iff.mp hsymbols with ⟨between, rfl, hrest⟩ | ⟨between, rfl, hrest⟩
    · rcases between with _ | ⟨t, between⟩
      · exact ⟨(List.append_nil _).symm, (List.cons.inj hrest).1⟩
      · obtain ⟨rfl, -⟩ := List.cons.inj hrest
        exact absurd hbefore' (not_distinct_of_mem hfirst hs)
    · rcases between with _ | ⟨t, between⟩
      · exact ⟨List.append_nil _, (List.cons.inj hrest).1.symm⟩
      · obtain ⟨rfl, -⟩ := List.cons.inj hrest
        exact absurd hbefore (not_distinct_of_mem hfirst' hs')
  exact ⟨List.inj_on_of_nodup_map hbefore hfirst hfirst' (hs.trans hs'.symm), rfl⟩

end Symbol

/-! ### Declaring symbols -/

namespace Graph

open EntityModel.Symbol (FirstRepeated Distinct)

variable {files : List LoadedFile} {g : Graph} {symbols : List Symbol}

/-- A graph holds some symbols: they are distinct, its classes are theirs in order, and so are its domains. -/
structure Holds (symbols : List Symbol) (g : Graph) : Prop where
  distinct : Distinct symbols
  nodes : g.nodes = (symbols.filterMap Symbol.class?).map fun declared => .ofDeclaration declared.1 declared.2
  domains : ∀ name entry, g.domains.get? name = some entry ↔ ∃ file declared, .domain file declared ∈ symbols
    ∧ declared.name.value = name ∧ entry = ⟨.ofDeclaration declared, file⟩

/-- What declaring symbols comes to: a graph that holds them, or the fault of the first that is repeated. -/
def Outcome (symbols : List Symbol) : Except Fault Graph → Prop
  | .ok g => g.Holds symbols
  | .error fault => ∃ first s, FirstRepeated symbols first s ∧ fault = first.repeated s

theorem holds_empty : ({} : Graph).Holds [] where
  distinct := List.Pairwise.nil
  nodes := rfl
  domains name entry := ⟨fun h => (by cases h), fun ⟨_, _, hmem, _⟩ => absurd hmem List.not_mem_nil⟩

theorem Holds.repeats (hg : g.Holds symbols) {first s : Symbol} (hfirst : first ∈ symbols) (hs : first.key = s.key) :
    Outcome (symbols ++ [s]) (.error (first.repeated s)) :=
  ⟨first, s, ⟨symbols, [], rfl, hg.distinct, hfirst, hs⟩, rfl⟩

theorem Holds.declareDomain (hg : g.Holds symbols) (file : FileId) (declared : Declaration.Domain) :
    Outcome (symbols ++ [.domain file declared]) (declareDomain file g declared) := by
  unfold Graph.declareDomain
  dsimp only
  split
  · next first hfirst =>
    obtain ⟨other, earlier, hmem, hname, rfl⟩ := (hg.domains _ _).mp hfirst
    exact hg.repeats hmem (congrArg Symbol.Key.domain hname)
  · next hnew =>
    have hfresh : ∀ file' (d : Declaration.Domain), .domain file' d ∈ symbols → d.name.value ≠ declared.name.value := by
      intro file' d hmem hname
      have hfound := (hg.domains _ _).mpr ⟨file', d, hmem, hname, rfl⟩
      rw [hnew] at hfound
      cases hfound
    refine ⟨hg.distinct.concat ?_, ?_, fun name entry => ?_⟩
    · rintro hmem
      obtain ⟨d | _, hmem, hkey⟩ := List.mem_map.mp hmem
      · exact hfresh _ _ hmem (Symbol.Key.domain.inj hkey)
      · cases hkey
    · rw [List.filterMap_append, List.filterMap_cons_none rfl, List.filterMap_nil, List.append_nil]
      exact hg.nodes
    · by_cases hname : declared.name.value = name
      · subst hname
        rw [SortedMap.get?_insert_self, Option.some_inj]
        constructor
        · rintro rfl
          exact ⟨file, declared, List.mem_append_right _ List.mem_cons_self, rfl, rfl⟩
        · rintro ⟨file', d, hmem, hname, rfl⟩
          rcases List.mem_append.mp hmem with hmem | hmem
          · exact absurd hname (hfresh file' d hmem)
          · obtain ⟨⟩ := List.mem_singleton.mp hmem
            rfl
      · rw [SortedMap.get?_insert_of_ne _ _ hname, hg.domains]
        constructor
        · rintro ⟨file', d, hmem, hrest⟩
          exact ⟨file', d, List.mem_append_left _ hmem, hrest⟩
        · rintro ⟨file', d, hmem, hname', hentry⟩
          rcases List.mem_append.mp hmem with hmem | hmem
          · exact ⟨file', d, hmem, hname', hentry⟩
          · obtain ⟨⟩ := List.mem_singleton.mp hmem
            exact absurd hname' hname

theorem Holds.declareClass (hg : g.Holds symbols) (file : FileId) (declared : Declaration.Class) :
    Outcome (symbols ++ [.klass file declared]) (declareClass file g declared) := by
  unfold Graph.declareClass
  dsimp only
  split
  · next first hfirst =>
    have hmem : first ∈ g.nodes := List.mem_of_find?_eq_some hfirst
    have hname := List.find?_some hfirst
    rw [beq_iff_eq] at hname
    rw [hg.nodes] at hmem
    obtain ⟨⟨other, earlier⟩, hdeclared, rfl⟩ := List.mem_map.mp hmem
    exact hg.repeats (Symbol.mem_filterMap_class?.mp hdeclared) (congrArg Symbol.Key.klass hname)
  · next hnew =>
    refine ⟨hg.distinct.concat ?_, ?_, fun name entry => ?_⟩
    · rintro hmem
      obtain ⟨_ | ⟨other, c⟩, hmem, hkey⟩ := List.mem_map.mp hmem
      · cases hkey
      · have hnode := List.mem_map_of_mem (f := fun declared => Node.ofDeclaration declared.1 declared.2)
          (Symbol.mem_filterMap_class?.mpr hmem)
        rw [← hg.nodes] at hnode
        exact node?_eq_none_iff.mp hnew (List.mem_map.mpr ⟨_, hnode, Symbol.Key.klass.inj hkey⟩)
    · have hlast : [Symbol.klass file declared].filterMap Symbol.class? = [(file, declared)] := rfl
      rw [List.filterMap_append, hlast, List.map_append, ← hg.nodes]
      rfl
    · simp only [hg.domains, List.mem_append, List.mem_singleton, reduceCtorEq, or_false]

theorem Outcome.bind {more : List Symbol} {result : Except Fault Graph} {f : Graph → Except Fault Graph}
    (h : Outcome symbols result) (hf : ∀ g, g.Holds symbols → Outcome (symbols ++ more) (f g)) :
    Outcome (symbols ++ more) (result >>= f) := by
  rcases result with fault | g
  · obtain ⟨first, s, hfirst, rfl⟩ := h
    exact ⟨first, s, hfirst.append more, rfl⟩
  · exact hf g h

theorem outcome_foldlM {α : Type} {declare : Graph → α → Except Fault Graph} {symbolsOf : α → List Symbol}
    {items : List α} (hstep : ∀ {symbols : List Symbol} {g : Graph}, g.Holds symbols →
      ∀ a ∈ items, Outcome (symbols ++ symbolsOf a) (declare g a))
    (hg : g.Holds symbols) :
    Outcome (symbols ++ items.flatMap symbolsOf) (items.foldlM declare g) := by
  induction items generalizing g symbols with
  | nil =>
    rw [List.flatMap_nil, List.append_nil]
    exact hg
  | cons item rest ih =>
    rw [List.flatMap_cons, ← List.append_assoc, List.foldlM_cons]
    exact (hstep hg item List.mem_cons_self).bind fun g' hg' =>
      ih (fun hg a ha => hstep hg a (List.mem_cons_of_mem _ ha)) hg'

theorem Holds.declareFile (hg : g.Holds symbols) {file : LoadedFile} (hfile : file.id ∉ file.uses) :
    Outcome (symbols ++ Symbol.ofFile file) (declareFile g file) := by
  have hopened : (g.withScope file).Holds symbols := ⟨hg.distinct, hg.nodes, hg.domains⟩
  have hdomains : Outcome (symbols ++ file.declared.domains.flatMap fun d => [.domain file.id d])
      (file.declared.domains.foldlM (Graph.declareDomain file.id) (g.withScope file)) :=
    outcome_foldlM (fun hg d _ => hg.declareDomain file.id d) hopened
  rw [Symbol.ofFile, List.map_eq_flatMap, List.map_eq_flatMap, ← List.append_assoc, Graph.declareFile,
    openScope_of_not_mem hfile]
  exact hdomains.bind fun g' hg' => outcome_foldlM (fun hg c _ => hg.declareClass file.id c) hg'

theorem outcome_of_files (h : ∀ file ∈ files, file.id ∉ file.uses) :
    Outcome (Symbol.ofFiles files) (files.foldlM declareFile {}) :=
  outcome_foldlM (fun hg file hfile => hg.declareFile (h file hfile)) holds_empty

/-! ### Files that use themselves -/

/-- The files before the first that uses itself. -/
def openedFiles (files : List LoadedFile) : List LoadedFile := files.takeWhile fun file => file.id ∉ file.uses

theorem not_mem_uses_of_mem_openedFiles {file : LoadedFile} (h : file ∈ openedFiles files) : file.id ∉ file.uses := by
  simpa using List.mem_takeWhile_imp h

theorem openedFiles_eq_self (h : ∀ file ∈ files, file.id ∉ file.uses) : openedFiles files = files :=
  List.takeWhile_eq_self_iff.mpr fun file hfile => by simpa using h file hfile

theorem exists_openedFiles_append (h : ∃ file ∈ files, file.id ∈ file.uses) :
    ∃ file rest, files = openedFiles files ++ file :: rest ∧ file.id ∈ file.uses := by
  have hfiles : openedFiles files ++ files.dropWhile (fun file => file.id ∉ file.uses) = files :=
    List.takeWhile_append_dropWhile
  rcases hrest : files.dropWhile (fun file => file.id ∉ file.uses) with _ | ⟨file, rest⟩
  · obtain ⟨file, hfile, huses⟩ := h
    have hnone := List.dropWhile_eq_nil_iff.mp hrest file hfile
    exact absurd huses (by simpa using hnone)
  · have hhead := List.head?_dropWhile_not (fun file : LoadedFile => decide (file.id ∉ file.uses)) files
    rw [hrest] at hfiles hhead
    exact ⟨file, rest, hfiles.symm, by simpa using hhead⟩

/-- A file that uses itself is not opened: the declarations before it count, and no others. -/
theorem foldlM_of_uses_self (h : ∃ file ∈ files, file.id ∈ file.uses) : files.foldlM declareFile {}
    = (do
      let _ ← (openedFiles files).foldlM declareFile {}
      .error (.outOfBounds (openedFiles files).length (openedFiles files).length)) := by
  obtain ⟨file, rest, hfiles, huses⟩ := exists_openedFiles_append h
  conv_lhs => rw [hfiles]
  rw [List.foldlM_append]
  rcases hopened : (openedFiles files).foldlM declareFile {} with fault | g
  · rfl
  · have hlength : g.scopes.length = (openedFiles files).length := by
      simpa using congrArg List.length (scopes_of_foldlM hopened)
    change (file :: rest).foldlM declareFile g = _
    rw [List.foldlM_cons, declareFile, openScope_of_mem huses, hlength]
    rfl

end Graph

/-! ### What is bound -/

/-- A domain is what a declaration makes: of the mappings of a target the last counts. -/
structure Domain.MadeBy (declared : Declaration.Domain) (domain : Domain) : Prop where
  name : domain.name = declared.name.value
  label : domain.label = declared.label
  length : domain.length = declared.length
  scale : domain.scale = declared.scale
  mapping : ∀ target, domain.mapping? target
    = ((declared.mappings.filter (·.1.value = target)).getLast?).map Prod.snd

theorem Domain.madeBy_ofDeclaration (declared : Declaration.Domain) :
    Domain.MadeBy declared (.ofDeclaration declared) where
  name := rfl
  label := rfl
  length := rfl
  scale := rfl
  mapping target := by
    rw [mapping?, ofDeclaration, SortedMap.get?_ofList, List.filter_map, List.getLast?_map, Option.map_map]
    rfl

namespace Graph

variable {files : List LoadedFile} {g : Graph}

/-- Why files cannot be bound: a symbol of the files before the first that uses itself repeats an earlier one, or those
have none such and there is a file that uses itself. -/
inductive BindFails (files : List LoadedFile) : Fault → Prop
  | repeated {first s : Symbol} :
      Symbol.FirstRepeated (Symbol.ofFiles (openedFiles files)) first s → BindFails files (first.repeated s)
  | usesItself {file : LoadedFile} : Symbol.Distinct (Symbol.ofFiles (openedFiles files)) → file ∈ files →
      file.id ∈ file.uses → BindFails files (.outOfBounds (openedFiles files).length (openedFiles files).length)

theorem bind_eq_error_iff {fault : Fault} :
    Graph.bind files = .error fault ↔ files.foldlM declareFile {} = .error fault := by
  rw [Graph.bind]
  rcases files.foldlM declareFile {} with other | declared
  · exact ⟨fun h => congrArg Except.error (Except.error.inj h), fun h => congrArg Except.error (Except.error.inj h)⟩
  · exact iff_of_false (by rintro ⟨⟩) (by rintro ⟨⟩)

theorem outcome_openedFiles (files : List LoadedFile) :
    Outcome (Symbol.ofFiles (openedFiles files)) ((openedFiles files).foldlM declareFile {}) :=
  outcome_of_files fun _ => not_mem_uses_of_mem_openedFiles

theorem fails_of_error {fault : Fault} (h : files.foldlM declareFile {} = .error fault) : BindFails files fault := by
  have houtcome := outcome_openedFiles files
  by_cases huses : ∃ file ∈ files, file.id ∈ file.uses
  · rw [foldlM_of_uses_self huses] at h
    rcases hopened : (openedFiles files).foldlM declareFile {} with other | opened
    · rw [hopened] at h houtcome
      cases h
      obtain ⟨first, s, hrepeated, rfl⟩ := houtcome
      exact .repeated hrepeated
    · rw [hopened] at h houtcome
      cases h
      obtain ⟨file, hfile, hself⟩ := huses
      exact .usesItself houtcome.distinct hfile hself
  · have hnone : openedFiles files = files :=
      openedFiles_eq_self fun file hfile hself => huses ⟨file, hfile, hself⟩
    rw [hnone, h] at houtcome
    obtain ⟨first, s, hrepeated, rfl⟩ := houtcome
    exact .repeated (by rwa [hnone])

theorem BindFails.unique {fault fault' : Fault} (h : BindFails files fault) (h' : BindFails files fault') :
    fault = fault' := by
  cases h with
  | repeated hrepeated =>
    cases h' with
    | repeated hrepeated' =>
      obtain ⟨rfl, rfl⟩ := hrepeated.unique hrepeated'
      rfl
    | usesItself hdistinct => exact absurd hdistinct hrepeated.not_distinct
  | usesItself hdistinct =>
    cases h' with
    | repeated hrepeated => exact absurd hdistinct hrepeated.not_distinct
    | usesItself => rfl

open Written (dataFile plain word)

/-- Files in load order do not use themselves, so that a run never comes to such a fault. -/
theorem bind_ne_outOfBounds {ordered : List LoadedFile} (horder : LoadOrder.order files = .ok ordered)
    (length index : Nat) : Graph.bind ordered ≠ .error (.outOfBounds length index) := by
  intro hbind
  have hordered := (LoadOrder.isLeastOrder_of_order horder).1
  have hfails := fails_of_error (bind_eq_error_iff.mp hbind)
  generalize hfault : Fault.outOfBounds length index = fault at hfails
  cases hfails with
  | @repeated _ s => cases s <;> cases hfault
  | usesItself _ hfile hself =>
    rcases hordered.follows.idxOf_lt hordered.nodup hfile hself with hplaced | hlt
    · exact absurd hplaced List.not_mem_nil
    · exact absurd hlt (Nat.lt_irrefl _)

end Graph

end EntityModel
