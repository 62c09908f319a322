import EntityModel.Proofs.UnusedFile
import EntityModel.Proofs.WideningChecks

/-!
# Unrelated files

A file that others neither use nor name something of, and that makes no alias key which one of them makes, may use
and name what they declare. Resolved with it or without it, the others have the same problems, the same order and
the same classes (`ofFiles_unrelated`).
-/

namespace EntityModel

open Diagnostic (besides)

/-! ### What files name -/

/-- The class that a property names: its target, or the class of its token. -/
def Declaration.Property.namedClass? : Declaration.Property → Option String
  | .field _ => none
  | .association p => some p.target.value
  | .composition p => some p.target.value
  | .alias p => (AliasToken.parse? p.token.value).map AliasToken.klass

/-- The domain that a property names. -/
def Declaration.Property.namedDomain? : Declaration.Property → Option String
  | .field p => some p.domain.value
  | _ => none

namespace LoadedFile

/-- The classes that a file names, as parents or in properties. -/
def namedClasses (file : LoadedFile) : List String :=
  file.declared.classes.flatMap fun declared =>
    (declared.parent.map Spanned.value).toList ++ declared.properties.filterMap Declaration.Property.namedClass?

def namedDomains (file : LoadedFile) : List String :=
  file.declared.classes.flatMap fun declared => declared.properties.filterMap Declaration.Property.namedDomain?

/-- A file is new to some files, none of them uses it or names a class or a domain that it declares, and none makes an
alias key that it makes. It may use and name what they declare. -/
structure Unrelated (settings : Settings) (file : LoadedFile) (files : List LoadedFile) : Prop where
  new : ∀ other ∈ files, other.id ≠ file.id
  unused : ∀ other ∈ files, file.id ∉ other.uses
  classes : ∀ other ∈ files, ∀ name ∈ other.namedClasses, name ∉ file.classNames
  domains : ∀ other ∈ files, ∀ name ∈ other.namedDomains, name ∉ file.domainNames
  keys : ∀ other ∈ files, ∀ key ∈ other.sourceKeys settings, key ∉ file.sourceKeys settings

theorem Unrelated.mono {settings : Settings} {file : LoadedFile} {files others : List LoadedFile}
    (h : file.Unrelated settings files) (hsub : others ⊆ files) : file.Unrelated settings others where
  new other hother := h.new other (hsub hother)
  unused other hother := h.unused other (hsub hother)
  classes other hother := h.classes other (hsub hother)
  domains other hother := h.domains other (hsub hother)
  keys other hother := h.keys other (hsub hother)

end LoadedFile

/-! ### The classes of a graph -/

namespace Graph

variable {settings : Settings} {file : LoadedFile} {files ordered : List LoadedFile} {g g' : Graph}

/-- What waits for its expansion is an alias of a class of some file. -/
def PendingDeclared (files : List LoadedFile) (g : Graph) : Prop :=
  ∀ a ∈ g.pending, ∃ other ∈ files, ∃ declared ∈ other.declared.classes, .alias a.declared ∈ declared.properties

theorem alias_mem_of_mem_ofProperties {owner position : Nat} {properties : List Declaration.Property}
    {a : PendingAlias} (ha : a ∈ PendingAlias.ofProperties owner position properties) :
    .alias a.declared ∈ properties := by
  induction properties generalizing position with
  | nil => exact absurd ha List.not_mem_nil
  | cons property rest ih =>
    cases property with
    | «alias» declared =>
      rcases List.mem_cons.mp ha with rfl | ha
      · exact List.mem_cons_self
      · exact List.mem_cons_of_mem _ (ih ha)
    | _ => exact List.mem_cons_of_mem _ (@ih (position + 1) ha)

theorem pendingDeclared_of_foldlM (h : files.foldlM declareFile {} = .ok g) : PendingDeclared files g := by
  have hempty : PendingDeclared files {} := fun _ ha => absurd ha List.not_mem_nil
  refine foldlM_induction (fun s other s' hother hs hstep => ?_) hempty h
  obtain ⟨-, mid, hdomains, hclasses⟩ := declareFile_eq_ok hstep
  obtain ⟨domains, rfl, -⟩ := declareDomains_eq_ok hdomains
  have hmid : PendingDeclared files { s.withScope other with domains } := hs
  refine foldlM_induction (fun t declared t' hdeclared ht hstep => ?_) hmid hclasses
  obtain ⟨-, rfl⟩ := declareClass_eq_ok hstep
  intro a ha
  rcases List.mem_append.mp ha with ha | ha
  · exact ht a ha
  · exact ⟨other, hother, declared, hdeclared, alias_mem_of_mem_ofProperties ha⟩

theorem apart_ofDeclaration (hunrelated : file.Unrelated settings files) {other : LoadedFile} (hother : other ∈ files)
    {declared : Declaration.Class} (hdeclared : declared ∈ other.declared.classes)
    (hname : declared.name.value ∉ file.classNames) : (Node.ofDeclaration other.id declared).Apart file where
  file := hunrelated.new other hother
  name := hname
  parent name hparent := by
    refine hunrelated.classes other hother _ (List.mem_flatMap.mpr ⟨declared, hdeclared, ?_⟩)
    have hparent : declared.parent = some name := hparent
    exact List.mem_append_left _ (by rw [hparent]; exact List.mem_singleton.mpr rfl)
  target p hp name hname := by
    refine hunrelated.classes other hother name (List.mem_flatMap.mpr ⟨declared, hdeclared, ?_⟩)
    obtain ⟨property, hproperty, hp⟩ := List.mem_filterMap.mp hp
    obtain ⟨value, hvalue, rfl⟩ := Option.map_eq_some_iff.mp hp
    refine List.mem_append_right _ (List.mem_filterMap.mpr ⟨property, hproperty, ?_⟩)
    cases property with
    | «alias» p => cases hvalue
    | _ =>
      cases hvalue
      exact hname
  domain p hp field hfield := by
    refine hunrelated.domains other hother _ (List.mem_flatMap.mpr ⟨declared, hdeclared, ?_⟩)
    obtain ⟨property, hproperty, hp⟩ := List.mem_filterMap.mp hp
    obtain ⟨value, hvalue, rfl⟩ := Option.map_eq_some_iff.mp hp
    refine List.mem_filterMap.mpr ⟨property, hproperty, ?_⟩
    obtain rfl : value = .field field := hfield
    cases property with
    | field p =>
      cases hvalue
      rfl
    | _ => cases hvalue

theorem mem_sourceKeys {other : LoadedFile} {declared : Declaration.Class}
    (hdeclared : declared ∈ other.declared.classes) {p : Spanned Property}
    (hp : p ∈ (Node.ofDeclaration other.id declared).properties) (hsource : isAliasSource settings p.value = true) :
    AliasToken.indexKey declared.name.value p.value.name ∈ other.sourceKeys settings :=
  List.mem_flatMap.mpr ⟨declared, hdeclared, List.mem_map.mpr ⟨p, List.mem_filter.mpr ⟨hp, hsource⟩, rfl⟩⟩

/-! ### All stages -/

variable {first last : List LoadedFile} {problems problems' : List Diagnostic}

theorem klass_not_mem_classNames (hunrelated : file.Unrelated settings files)
    (h : files.foldlM declareFile {} = .ok g) {a : PendingAlias} (ha : a ∈ g.pending) {token : AliasToken}
    (htoken : AliasToken.parse? a.declared.token.value = some token) : token.klass ∉ file.classNames := by
  obtain ⟨other, hother, declared, hdeclared, halias⟩ := pendingDeclared_of_foldlM h a ha
  refine hunrelated.classes other hother _ (List.mem_flatMap.mpr ⟨declared, hdeclared, ?_⟩)
  refine List.mem_append_right _ (List.mem_filterMap.mpr ⟨_, halias, ?_⟩)
  exact congrArg (Option.map AliasToken.klass) htoken

theorem separates_of_declares (hunrelated : file.Unrelated settings (first ++ last)) (start : Nat)
    (hg : Declares (first ++ last) g) (hg' : Declares (first ++ file :: last) g') :
    Widens.Separates settings ⟨file, start⟩ g g' where
  kept node hnode p hp hsource := by
    obtain ⟨other, hother, declared, hdeclared, rfl⟩ := hg.nodes node hnode
    exact hunrelated.keys other hother _ (mem_sourceKeys hdeclared hp hsource)
  other node hnode hfile p hp hsource := by
    obtain ⟨other, hother, declared, hdeclared, rfl⟩ := hg'.nodes node hnode
    have hsame : other = file := by
      by_contra hne
      have hmem : other ∈ first ++ last := by simpa [hne] using hother
      exact hunrelated.new other hmem hfile
    subst hsame
    exact mem_sourceKeys hdeclared hp hsource

theorem disregards_of_bind (hunrelated : file.Unrelated settings (first ++ last))
    (h : Graph.bind (first ++ last) = .ok (g, problems))
    (h' : Graph.bind (first ++ file :: last) = .ok (g', problems')) :
    ∃ start, g.Disregards ⟨file, start⟩ g' ∧ Widens.Separates settings ⟨file, start⟩ g g'
      ∧ (∀ a ∈ g.pending, ∀ token, AliasToken.parse? a.declared.token.value = some token →
        token.klass ∉ file.classNames)
      ∧ besides file.id problems' = problems := by
  obtain ⟨s, hs, rfl, rfl⟩ := bind_eq_ok h
  obtain ⟨s', hs', rfl, rfl⟩ := bind_eq_ok h'
  obtain ⟨start, hwidens⟩ := widens_of_foldlM
    (fun other hother => hunrelated.unused other (List.mem_append_right _ hother)) hs hs'
  have hdeclares := declares_of_foldlM hs
  have hdeclares' := declares_of_foldlM hs'
  have hapart : ∀ node ∈ s.nodes, node.Apart file := by
    intro node hnode
    have hname := hwidens.name_not_mem hdeclares'.names hnode
    obtain ⟨other, hother, declared, hdeclared, rfl⟩ := hdeclares.nodes node hnode
    exact apart_ofDeclaration hunrelated hother hdeclared hname
  obtain ⟨hbound, hproblems⟩ := hwidens.bind hapart
  have hkeys := separates_of_declares hunrelated start hdeclares hdeclares'
  refine ⟨start, ⟨hbound, fun node hnode => ?_⟩, ⟨fun node hnode => ?_, fun node hnode => ?_⟩,
    fun a ha token htoken => klass_not_mem_classNames hunrelated hs ha htoken, hproblems⟩
  · obtain ⟨node, hmem, rfl⟩ := List.mem_map.mp hnode
    have hnode := hapart node hmem
    exact ⟨hnode.file, hnode.name, hnode.parent, hnode.target, hnode.domain⟩
  · obtain ⟨node, hmem, rfl⟩ := List.mem_map.mp hnode
    exact hkeys.kept node hmem
  · obtain ⟨node, hmem, rfl⟩ := List.mem_map.mp hnode
    exact hkeys.other node hmem

theorem map_toClass_filter {w : Widening} (h : g.Disregards w g') :
    (g'.nodes.map Node.toClass).filter (·.file ≠ w.file.id) = g.nodes.map Node.toClass := by
  rw [List.filter_map]
  have hnodes := h.filter_nodes fun node hnode => (h.apart node hnode).file
  refine (congrArg (List.map Node.toClass) hnodes).trans ?_
  rw [List.map_map]
  rfl

end Graph

namespace Resolution

open LoadOrder (order)

variable {settings : Settings} {version version' : Nat} {file : LoadedFile}

theorem ofGraph_disregards {w : Widening} {g g' : Graph} (h : g.Disregards w g')
    (hkeys : Graph.Widens.Separates settings w g g')
    (hpending : ∀ a ∈ g.pending, ∀ token, AliasToken.parse? a.declared.token.value = some token →
      token.klass ∉ w.file.classNames) {problems problems' : List Diagnostic}
    (hproblems : besides w.file.id problems' = problems) {small large : Resolution}
    (hsmall : ofGraph settings version g problems = .ok small)
    (hlarge : ofGraph settings version' g' problems' = .ok large) :
    besides w.file.id large.diagnostics = small.diagnostics
      ∧ ∀ m m', small.model = some m → large.model = some m' →
        m'.classes.filter (·.file ≠ w.file.id) = m.classes := by
  obtain ⟨hexpanded, haliases⟩ := h.expandAliases_eq hkeys hpending
  obtain ⟨hresolved, hbound⟩ := @Graph.Disregards.bindForeignKeys_eq settings w _ _ hexpanded
  obtain ⟨_, rfl, rfl⟩ := ofGraph_eq_ok hsmall
  obtain ⟨_, rfl, rfl⟩ := ofGraph_eq_ok hlarge
  refine ⟨?_, fun m m' hm hm' => ?_⟩
  · simp only [Diagnostic.besides_append, hproblems, haliases, hbound, hresolved.checkDiagnostics_eq]
  · dsimp only at hm hm'
    split at hm
    · cases hm
    · split at hm'
      · cases hm'
      · obtain rfl := Option.some.inj hm
        obtain rfl := Option.some.inj hm'
        exact Graph.map_toClass_filter hresolved

/-- **An unrelated file changes nothing else.** If files are resolved with it and without it, then besides its own
problems there are the same in the same order, the other files are loaded in the same order, and their classes are
the same in both models. -/
theorem ofFiles_unrelated {before after : List LoadedFile} (hunrelated : file.Unrelated settings (before ++ after))
    {small large : Resolution} (hsmall : ofFiles settings version (before ++ after) = .ok small)
    (hlarge : ofFiles settings version' (before ++ file :: after) = .ok large) :
    besides file.id large.diagnostics = small.diagnostics
      ∧ (∃ ordered ordered', order (before ++ after) = .ok ordered ∧ order (before ++ file :: after) = .ok ordered'
        ∧ ordered'.filter (·.id ≠ file.id) = ordered)
      ∧ ∀ m m', small.model = some m → large.model = some m' →
        m'.classes.filter (·.file ≠ file.id) = m.classes := by
  obtain ⟨ordered, g, problems, horder, hbind, hgraph⟩ := ofFiles_eq_ok hsmall
  obtain ⟨ordered', g', problems', horder', hbind', hgraph'⟩ := ofFiles_eq_ok hlarge
  obtain ⟨first, last, rfl, rfl⟩ := LoadOrder.order_insert hunrelated.new hunrelated.unused horder' horder
  have hplaced : file.Unrelated settings (first ++ last) := hunrelated.mono (LoadOrder.order_subset horder)
  obtain ⟨start, hdisregards, hkeys, hpending, hproblems⟩ := Graph.disregards_of_bind hplaced hbind hbind'
  obtain ⟨hdiagnostics, hclasses⟩ := ofGraph_disregards hdisregards hkeys hpending hproblems hgraph hgraph'
  refine ⟨hdiagnostics, ⟨_, _, horder, horder', ?_⟩, hclasses⟩
  have hkept {kept : List LoadedFile} (hkept : kept ⊆ first ++ last) : kept.filter (·.id ≠ file.id) = kept :=
    List.filter_eq_self.mpr fun other hother => decide_eq_true (hplaced.new other (hkept hother))
  rw [List.filter_append, List.filter_cons_of_neg (by simp), hkept (List.subset_append_left first last),
    hkept (List.subset_append_right first last)]

open Written (copy field dataFile plain word)

/-- A class with a key and a field that has no persisted type. -/
def noteFile : LoadedFile := dataFile "Note" []
  [{ name := word "DO_ID", mappings := [(word "sql", "int")], span := ⟨0, 0⟩ },
    { name := word "DO_TEXT", span := ⟨0, 0⟩ }]
  [plain "Note" [.field { name := word "Id", domain := word "DO_ID", primaryKey := true, span := ⟨0, 0⟩ },
    field "Text" "DO_TEXT" ⟨0, 0⟩] ⟨0, 0⟩]

/-- A class that refers to it and copies its field. -/
def pageFile : LoadedFile := dataFile "Page" ["Note"] []
  [plain "Page" [.field { name := word "Id", domain := word "DO_ID", primaryKey := true, span := ⟨0, 0⟩ },
    .association { name := word "NoteId", target := word "Note", span := ⟨0, 0⟩ },
    copy "Note_Text" ⟨0, 0⟩] ⟨0, 0⟩]

/-- A class below it that does so too, and has a field without a persisted type of its own. It comes between the other
two. -/
def oddFile : LoadedFile := dataFile "Odd" ["Note"] []
  [{ plain "Odd" [field "Other" "DO_TEXT" ⟨0, 0⟩,
    .association { name := word "NoteId", target := word "Note", span := ⟨0, 0⟩ },
    copy "Note_Text_Own" ⟨0, 0⟩] ⟨0, 0⟩ with parent := some (word "Note") }]

theorem ofFiles_unrelated_odd :
    oddFile.Unrelated {} ([noteFile] ++ [pageFile])
      ∧ ∃ m m' found found', ofFiles {} 1 ([noteFile] ++ [pageFile]) = .ok ⟨some m, found⟩
        ∧ ofFiles {} 1 ([noteFile] ++ oddFile :: [pageFile]) = .ok ⟨some m', found'⟩
        ∧ m.warnings.length = 1 ∧ m'.warnings.length = 2 ∧ besides oddFile.id found' = found
        ∧ m.classes.length = 2 ∧ m'.classes.length = 3 ∧ m'.classes.filter (·.file ≠ oddFile.id) = m.classes := by
  have hunrelated : oddFile.Unrelated {} ([noteFile] ++ [pageFile]) :=
    ⟨by decide +kernel, by decide +kernel, by decide +kernel, by decide +kernel, by decide +kernel⟩
  obtain ⟨m, found, hsmall, hcount⟩ := exists_ok_of_any_model
    (show ((ofFiles {} 1 ([noteFile] ++ [pageFile])).toOption.bind Resolution.model).any (fun m =>
      m.classes.length == 2 && m.warnings.length == 1) = true by decide +kernel)
  obtain ⟨m', found', hlarge, hcount'⟩ := exists_ok_of_any_model
    (show ((ofFiles {} 1 ([noteFile] ++ oddFile :: [pageFile])).toOption.bind Resolution.model).any (fun m =>
      m.classes.length == 3 && m.warnings.length == 2) = true by decide +kernel)
  rw [Bool.and_eq_true, beq_iff_eq, beq_iff_eq] at hcount hcount'
  obtain ⟨hbesides, -, hclasses⟩ := ofFiles_unrelated hunrelated hsmall hlarge
  exact ⟨hunrelated, m, m', found, found', hsmall, hlarge, hcount.2, hcount'.2, hbesides, hcount.1, hcount'.1,
    hclasses m m' rfl rfl⟩

end Resolution

end EntityModel
