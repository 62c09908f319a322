import EntityModel.Proofs.Binding
import EntityModel.Proofs.LoadOrder

/-!
# Whose classes a file may refer to

A file sees itself and what the files that it uses see. This is read off the scopes opened so far, and in the
load order all that a file uses is among them, so that a file sees what it uses directly or not, and nothing
else (`isVisible_iff_uses`).
-/

namespace EntityModel.Graph

open LoadOrder (Uses Follows last?)
open Relation (ReflTransGen TransGen)

variable {files : List LoadedFile} {placed : List FileId} {file : LoadedFile} {g g' : Graph}

/-! ### The scopes of a graph -/

/-- The scopes when some files have been placed: each of them has one, and a scope holds what its file reaches. -/
structure Scoped (files : List LoadedFile) (placed : List FileId) (g : Graph) : Prop where
  opened : ∀ id ∈ placed, ∃ scope, g.scope? id = some scope
  reached : ∀ scope ∈ g.scopes, scope.file.id ∈ placed
    ∧ ∀ id, id ∈ scope.visible ↔ ReflTransGen (Uses files) scope.file.id id

theorem scoped_empty (files : List LoadedFile) : Scoped files [] {} where
  opened _ hid := absurd hid List.not_mem_nil
  reached _ hscope := absurd hscope List.not_mem_nil

theorem Scoped.congr (hg : Scoped files placed g) (h : g'.scopes = g.scopes) : Scoped files placed g' where
  opened := by
    unfold scope?
    rw [h]
    exact hg.opened
  reached := by
    rw [h]
    exact hg.reached

theorem Scoped.isVisible_iff (hg : Scoped files placed g) {source target : FileId} :
    g.isVisible source target = true ↔ source ∈ placed ∧ ReflTransGen (Uses files) source target := by
  constructor
  · intro hvisible
    obtain ⟨scope, hscope, htarget⟩ := (Option.any_eq_true _ _).mp hvisible
    obtain ⟨hmem, rfl⟩ := mem_of_scope? hscope
    obtain ⟨hplaced, hreached⟩ := hg.reached scope hmem
    exact ⟨hplaced, (hreached target).mp (List.contains_iff_mem.mp htarget)⟩
  · rintro ⟨hplaced, hreaches⟩
    obtain ⟨scope, hscope⟩ := hg.opened source hplaced
    obtain ⟨hmem, rfl⟩ := mem_of_scope? hscope
    have htarget := ((hg.reached scope hmem).2 target).mpr hreaches
    exact (Option.any_eq_true _ _).mpr ⟨scope, hscope, List.contains_iff_mem.mpr htarget⟩

/-! ### One file -/

/-- What a new scope sees, when all that its file uses has been placed. -/
theorem Scoped.mem_visible_iff (hg : Scoped files placed g) (hlast : last? files file.id = some file)
    (hplaced : ∀ used ∈ file.uses, used ∈ placed) {id : FileId} :
    id ∈ file.id :: (file.uses.filterMap g.scope?).flatMap Scope.visible
      ↔ ReflTransGen (Uses files) file.id id := by
  have hused : id ∈ (file.uses.filterMap g.scope?).flatMap Scope.visible
      ↔ ∃ used ∈ file.uses, ReflTransGen (Uses files) used id := by
    constructor
    · intro hid
      obtain ⟨scope, hscope, hid⟩ := List.mem_flatMap.mp hid
      obtain ⟨used, hused, hscope⟩ := List.mem_filterMap.mp hscope
      obtain ⟨hmem, rfl⟩ := mem_of_scope? hscope
      exact ⟨_, hused, ((hg.reached scope hmem).2 id).mp hid⟩
    · rintro ⟨used, hused, hreaches⟩
      obtain ⟨scope, hscope⟩ := hg.opened used (hplaced used hused)
      obtain ⟨hmem, rfl⟩ := mem_of_scope? hscope
      have hid := ((hg.reached scope hmem).2 id).mpr hreaches
      exact List.mem_flatMap.mpr ⟨scope, List.mem_filterMap.mpr ⟨_, hused, hscope⟩, hid⟩
  calc id ∈ file.id :: (file.uses.filterMap g.scope?).flatMap Scope.visible
      ↔ file.id = id ∨ ∃ used ∈ file.uses, ReflTransGen (Uses files) used id := by
        rw [List.mem_cons, hused, eq_comm]
    _ ↔ file.id = id ∨ ∃ used, Uses files file.id used ∧ ReflTransGen (Uses files) used id := by
        simp only [LoadOrder.uses_iff hlast]
    _ ↔ ReflTransGen (Uses files) file.id id := Relation.ReflTransGen.cases_head_iff.symm

theorem Scoped.withScope (hg : Scoped files placed g) (hlast : last? files file.id = some file)
    (hplaced : ∀ used ∈ file.uses, used ∈ placed) :
    Scoped files (file.id :: placed) (g.withScope file) where
  opened id hid := by
    rw [scope?_withScope]
    by_cases hsame : file.id = id
    · rw [if_pos hsame]
      exact ⟨_, rfl⟩
    · rw [if_neg hsame]
      exact hg.opened id ((List.mem_cons.mp hid).resolve_left (Ne.symm hsame))
  reached scope hscope := by
    rcases List.mem_cons.mp hscope with rfl | hscope
    · exact ⟨List.mem_cons_self, fun id => hg.mem_visible_iff hlast hplaced⟩
    · obtain ⟨hmem, hreached⟩ := hg.reached scope hscope
      exact ⟨List.mem_cons_of_mem _ hmem, hreached⟩

theorem Scoped.declareDomain (hg : Scoped files placed g) {id : FileId} {declared : Declaration.Domain}
    (h : declareDomain id g declared = .ok g') : Scoped files placed g' := by
  obtain rfl := declareDomain_eq_ok h
  exact hg.congr rfl

theorem Scoped.declareClass (hg : Scoped files placed g) {id : FileId} {declared : Declaration.Class}
    (h : declareClass id g declared = .ok g') : Scoped files placed g' := by
  obtain ⟨-, rfl⟩ := declareClass_eq_ok h
  exact hg.congr rfl

theorem Scoped.declareFile (hg : Scoped files placed g) (hlast : last? files file.id = some file)
    (hplaced : ∀ used ∈ file.uses, used ∈ placed) (h : declareFile g file = .ok g') :
    Scoped files (file.id :: placed) g' := by
  obtain ⟨-, mid, hdomains, hclasses⟩ := declareFile_eq_ok h
  have hopened := hg.withScope hlast hplaced
  have hmid := foldlM_induction (fun _ _ _ _ hstate hitem => Scoped.declareDomain hstate hitem) hopened hdomains
  exact foldlM_induction (fun _ _ _ _ hstate hitem => Scoped.declareClass hstate hitem) hmid hclasses

/-! ### All files -/

/-- Files that come in an order in which each follows all it uses are placed one after the other. -/
theorem Scoped.declareFiles (hg : Scoped files placed g) {ordered : List LoadedFile}
    (hlast : ∀ file ∈ ordered, last? files file.id = some file) (hfollows : Follows placed ordered)
    (h : ordered.foldlM Graph.declareFile g = .ok g') :
    Scoped files ((ordered.map LoadedFile.id).reverse ++ placed) g' := by
  induction ordered generalizing placed g with
  | nil =>
    cases h
    exact hg
  | cons file rest ih =>
    rw [List.foldlM_cons] at h
    obtain ⟨next, hfile, hrest⟩ := bind_eq_ok_iff.mp h
    obtain ⟨hplaced, hfollows⟩ := hfollows
    have hnext := hg.declareFile (hlast file List.mem_cons_self) hplaced hfile
    have hall := ih hnext (fun other hother => hlast other (List.mem_cons_of_mem _ hother)) hfollows hrest
    rwa [List.map_cons, List.reverse_cons, List.append_assoc, List.singleton_append]

/-- **A file sees itself and the files that it uses, directly or not.** -/
theorem isVisible_iff_uses {ordered : List LoadedFile} {problems : List Diagnostic}
    (horder : LoadOrder.order files = .ok ordered) (hbind : Graph.bind ordered = .ok (g, problems))
    (source target : FileId) :
    g.isVisible source target = true
      ↔ source ∈ files.map LoadedFile.id ∧ (target = source ∨ TransGen (Uses files) source target) := by
  have hordered := (LoadOrder.isLeastOrder_of_order horder).1
  obtain ⟨declared, hdeclared, rfl, -⟩ := bind_eq_ok hbind
  have hscoped := (scoped_empty files).declareFiles (fun file hfile => (hordered.mem file).mp hfile)
    hordered.follows hdeclared
  have hbound : Scoped files ((ordered.map LoadedFile.id).reverse ++ [])
      { declared with nodes := declared.nodes.map declared.withParent } := hscoped.congr rfl
  rw [hbound.isVisible_iff, List.append_nil, List.mem_reverse, hordered.mem_ids_iff,
    Relation.reflTransGen_iff_eq_or_transGen]

/-- A file of a name that uses those of some other names. -/
def fileUsing (name : String) (uses : List String) : LoadedFile :=
  Written.dataFile name uses [] []

/-- Three files in a chain of uses and one beside it, the users first. -/
def chain : List LoadedFile := [fileUsing "C" ["B"], fileUsing "D" [], fileUsing "B" ["A"], fileUsing "A" []]

theorem isVisible_iff_uses_chain :
    ∃ ordered g problems, LoadOrder.order chain = .ok ordered ∧ Graph.bind ordered = .ok (g, problems)
      ∧ g.isVisible (fileUsing "C" ["B"]).id (fileUsing "A" []).id = true
      ∧ ¬ g.isVisible (fileUsing "A" []).id (fileUsing "C" ["B"]).id = true := by
  have hok : (LoadOrder.order chain >>= Graph.bind).isOk = true := by decide +kernel
  rcases hrun : LoadOrder.order chain >>= Graph.bind with fault | ⟨g, problems⟩
  · rw [hrun] at hok
    cases hok
  · obtain ⟨ordered, horder, hbind⟩ := bind_eq_ok_iff.mp hrun
    have hfirst : Uses chain (fileUsing "C" ["B"]).id (fileUsing "B" ["A"]).id :=
      ⟨fileUsing "C" ["B"], by decide +kernel, by decide +kernel⟩
    have hsecond : Uses chain (fileUsing "B" ["A"]).id (fileUsing "A" []).id :=
      ⟨fileUsing "B" ["A"], by decide +kernel, by decide +kernel⟩
    refine ⟨ordered, g, problems, horder, hbind, ?_, fun hvisible => ?_⟩
    · refine (isVisible_iff_uses horder hbind _ _).mpr ⟨by decide +kernel, Or.inr ?_⟩
      exact (TransGen.single hfirst).tail hsecond
    · obtain ⟨-, hsame | huses⟩ := (isVisible_iff_uses horder hbind _ _).mp hvisible
      · exact absurd hsame (by decide)
      · obtain ⟨used, hused, -⟩ := Relation.TransGen.head'_iff.mp huses
        have hlast : last? chain (fileUsing "A" []).id = some (fileUsing "A" []) := by decide +kernel
        exact absurd ((LoadOrder.uses_iff hlast).mp hused) List.not_mem_nil

end EntityModel.Graph
