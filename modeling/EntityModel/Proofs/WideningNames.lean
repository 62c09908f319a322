import EntityModel.Proofs.Visibility
import EntityModel.Proofs.Widening

/-!
# Binding names with one more file

The files before the new one declare the same with it and without it. Its own declarations put its classes behind
those that are there, and from then on each file, using others only, adds the same to both graphs
(`widens_of_foldlM`). Parents are then found at the positions that their classes have moved to (`Widens.bind`).
-/

namespace EntityModel

variable {file : LoadedFile}

theorem Widening.map_movePending (w : Widening) (owner position : Nat) (properties : List Declaration.Property) :
    (PendingAlias.ofProperties owner position properties).map w.movePending
      = PendingAlias.ofProperties (w.place owner) position properties := by
  induction properties generalizing position with
  | nil => rfl
  | cons property rest ih =>
    cases property with
    | «alias» declared => exact congrArg _ (ih position)
    | _ => exact ih (position + 1)

namespace Graph

variable {w : Widening} {g g' : Graph}

/-! ### The declarations of the file -/

theorem widens_of_declareFile {files : List LoadedFile} (hg : Declares files g)
    (h : declareFile g file = .ok g') : g.Widens ⟨file, g.nodes.length⟩ g' := by
  obtain ⟨-, mid, hdomains, hclasses⟩ := declareFile_eq_ok h
  obtain ⟨domains, rfl, hsame⟩ := declareDomains_eq_ok hdomains
  obtain rfl := declareClasses_eq_ok hclasses
  refine ⟨⟨g.nodes, file.declared.classes.map (Node.ofDeclaration file.id), [], ?_, ?_, rfl, ?_, ?_⟩, ?_,
    fun id hid => ?_, hsame⟩
  · rw [List.append_nil]
  · have hmoved : g.nodes.map (Widening.move ⟨file, g.nodes.length⟩) = g.nodes := by
      refine (List.map_congr_left fun node hnode => ?_).trans (List.map_id' _)
      obtain ⟨_, _, _, _, rfl⟩ := hg.nodes node hnode
      rfl
    rw [hmoved, List.map_nil, List.append_nil]
    rfl
  · rw [List.map_map]
    exact List.map_id' _
  · intro node hnode
    obtain ⟨_, _, rfl⟩ := List.mem_map.mp hnode
    rfl
  · have hold : g.pending.filter (Widening.keeps ⟨file, g.nodes.length⟩ ·.owner)
        = g.pending.map (Widening.movePending ⟨file, g.nodes.length⟩) := by
      have hlt : ∀ a ∈ g.pending, a.owner < g.nodes.length := fun a ha => by
        obtain ⟨node, hnode, -⟩ := hg.waiting.placed a ha
        exact (List.getElem?_eq_some_iff.mp hnode).1
      rw [List.filter_eq_self.mpr fun a ha => ?_]
      · refine ((List.map_congr_left fun a ha => ?_).trans (List.map_id' _)).symm
        rw [Widening.movePending, Widening.place_of_lt _ (hlt a ha)]
      · exact Widening.keeps_of_lt _ (hlt a ha)
    have hnew : (PendingAlias.ofNodes g.nodes.length (file.declared.classes.map (Node.ofDeclaration file.id))).filter
        (Widening.keeps ⟨file, g.nodes.length⟩ ·.owner) = [] := by
      refine List.filter_eq_nil_iff.mpr fun a ha => Bool.eq_false_iff.mp ((Widening.keeps_eq_false_iff _).mpr ?_)
      have howner := PendingAlias.owner_of_mem_ofNodes ha
      rwa [List.length_map] at howner
    refine (List.filter_append _ _).trans ((congrArg (_ ++ ·) hnew).trans ?_)
    rw [List.append_nil]
    exact hold
  · exact (scope?_withScope g file id).trans (if_neg (Ne.symm hid))

/-! ### The declarations of other files -/

namespace Widens

theorem withScope (h : g.Widens w g') {other : LoadedFile} (hunused : w.file.id ∉ other.uses) :
    (g.withScope other).Widens w (g'.withScope other) := by
  refine ⟨h.nodes, h.pending, fun id hid => ?_, h.domains⟩
  have hused : other.uses.filterMap g'.scope? = other.uses.filterMap g.scope? :=
    List.filterMap_congr fun used hmem => h.scope used fun heq => hunused (heq ▸ hmem)
  rw [scope?_withScope, scope?_withScope, hused, h.scope id hid]

theorem declareDomain {id : FileId} {declared : Declaration.Domain} {s s' : Graph} (h : g.Widens w g')
    (hs : Graph.declareDomain id g declared = .ok s) (hs' : Graph.declareDomain id g' declared = .ok s') :
    s.Widens w s' := by
  obtain rfl := declareDomain_eq_ok hs
  obtain rfl := declareDomain_eq_ok hs'
  refine ⟨h.nodes, h.pending, h.scope, fun name hname => ?_⟩
  by_cases heq : declared.name.value = name
  · subst heq
    rw [SortedMap.get?_insert_self, SortedMap.get?_insert_self]
  · rw [SortedMap.get?_insert_of_ne _ _ heq, SortedMap.get?_insert_of_ne _ _ heq]
    exact h.domains name hname

theorem declareClass {id : FileId} {declared : Declaration.Class} {s s' : Graph} (h : g.Widens w g')
    (hs : Graph.declareClass id g declared = .ok s) (hs' : Graph.declareClass id g' declared = .ok s') :
    s.Widens w s' := by
  obtain ⟨-, rfl⟩ := declareClass_eq_ok hs
  obtain ⟨-, rfl⟩ := declareClass_eq_ok hs'
  obtain ⟨first, others, last, hnodes, hnodes', hstart, hothers, hfile⟩ := h.nodes
  have hcount := w.length_eq_count hothers
  have hlength : g'.nodes.length = w.place g.nodes.length := by
    rw [hnodes, hnodes', w.place_of_le (by rw [List.length_append]; omega)]
    simp only [List.length_append, List.length_map]
    omega
  refine ⟨⟨first, others, last ++ [.ofDeclaration id declared], ?_, ?_, hstart, hothers, hfile⟩, ?_, h.scope,
    h.domains⟩
  · dsimp only
    rw [hnodes, List.append_assoc]
  · dsimp only
    rw [hnodes', List.map_append, List.append_assoc, List.append_assoc]
    rfl
  · dsimp only
    rw [List.filter_append, h.pending, List.map_append, w.map_movePending, hlength,
      List.filter_eq_self.mpr fun a ha => ?_]
    rw [(PendingAlias.mem_ofProperties none ha).1, w.keeps_place]

theorem declareFile {other : LoadedFile} {s s' : Graph} (h : g.Widens w g') (hunused : w.file.id ∉ other.uses)
    (hs : Graph.declareFile g other = .ok s) (hs' : Graph.declareFile g' other = .ok s') : s.Widens w s' := by
  obtain ⟨-, mid, hdomains, hclasses⟩ := declareFile_eq_ok hs
  obtain ⟨-, mid', hdomains', hclasses'⟩ := declareFile_eq_ok hs'
  have hmid : mid.Widens w mid' :=
    foldlM_relation (fun _ _ _ _ _ _ h => h.declareDomain) (h.withScope hunused) hdomains hdomains'
  exact foldlM_relation (fun _ _ _ _ _ _ h => h.declareClass) hmid hclasses hclasses'

end Widens

/-- **All declarations with one more file.** -/
theorem widens_of_foldlM {first last : List LoadedFile} (hunused : ∀ other ∈ last, file.id ∉ other.uses)
    (h : (first ++ last).foldlM declareFile {} = .ok g) (h' : (first ++ file :: last).foldlM declareFile {} = .ok g') :
    ∃ start, g.Widens ⟨file, start⟩ g' := by
  obtain ⟨mid', next, hmid', hnext, hlast'⟩ := foldlM_append_cons h'
  rw [List.foldlM_append] at h
  obtain ⟨mid, hmid, hlast⟩ := bind_eq_ok_iff.mp h
  obtain rfl : mid' = mid := Except.ok.inj (hmid'.symm.trans hmid)
  refine ⟨mid'.nodes.length, foldlM_relation (fun other hother _ _ _ _ h => h.declareFile (hunused other hother))
    (widens_of_declareFile (declares_of_foldlM hmid) hnext) hlast hlast'⟩

/-! ### Parents -/

theorem Widens.name_not_mem (h : g.Widens w g') (hnames : (g'.nodes.map Node.name).Nodup) {node : Node}
    (hnode : node ∈ g.nodes) : node.name ∉ w.file.classNames := by
  obtain ⟨first, others, last, hnodes, hnodes', -, hothers, -⟩ := h.nodes
  have hclasses : w.file.classNames = others.map Node.name := by
    rw [LoadedFile.classNames, ← hothers, List.map_map]
    rfl
  have hmoved (nodes : List Node) : (nodes.map w.move).map Node.name = nodes.map Node.name := by
    rw [List.map_map]
    rfl
  rw [hnodes', List.map_append, List.map_append, hmoved, hmoved, List.nodup_append, List.nodup_append] at hnames
  obtain ⟨-, ⟨-, -, hlast⟩, hfirst⟩ := hnames
  rw [hclasses]
  intro hmem
  rw [hnodes] at hnode
  rcases List.mem_append.mp hnode with hnode | hnode
  · exact hfirst _ (List.mem_map_of_mem hnode) _ (List.mem_append_left _ hmem) rfl
  · exact hlast _ hmem _ (List.mem_map_of_mem hnode) rfl

theorem Widens.map_nodes (h : g.Widens w g') {f f' : Node → Node}
    (hkept : ∀ node ∈ g.nodes, f' (w.move node) = w.move (f node)) (hfile : ∀ node, (f' node).file = node.file)
    (hdeclared : ∀ node, (f' node).declared = node.declared) :
    ({ g with nodes := g.nodes.map f } : Graph).Widens w { g' with nodes := g'.nodes.map f' } := by
  obtain ⟨first, others, last, hnodes, hnodes', hstart, hothers, hfiles⟩ := h.nodes
  have hmoved {kept : List Node} (hsub : kept ⊆ g.nodes) : (kept.map w.move).map f' = (kept.map f).map w.move := by
    rw [List.map_map, List.map_map]
    exact List.map_congr_left fun node hnode => hkept node (hsub hnode)
  refine ⟨⟨first.map f, others.map f', last.map f, ?_, ?_, ?_, ?_, fun node hnode => ?_⟩, h.pending, h.scope, h.domains⟩
  · dsimp only
    rw [hnodes, List.map_append]
  · dsimp only
    rw [hnodes', List.map_append, List.map_append, hmoved (hnodes ▸ List.subset_append_left first last),
      hmoved (hnodes ▸ List.subset_append_right first last)]
  · rw [List.length_map, hstart]
  · rw [List.map_map, ← hothers]
    exact List.map_congr_left fun node _ => hdeclared node
  · obtain ⟨other, hother, rfl⟩ := List.mem_map.mp hnode
    exact (hfile other).trans (hfiles other hother)

theorem Widens.parentDiagnostics_eq (h : g.Widens w g') {node : Node} (hnode : node.Apart w.file) :
    g'.parentDiagnostics (w.move node) = g.parentDiagnostics node := by
  rw [parentDiagnostics, parentDiagnostics, Widening.declared_move]
  rcases hparent : node.declared.parent with _ | ⟨name, span⟩
  · rfl
  · dsimp only
    rw [h.node?_eq (hnode.parent _ hparent)]
    rcases g.node? name with _ | parent
    · rw [Option.map_none]
      dsimp only
      rw [h.diagnostic_eq hnode.file, Widening.name_move]
    · rw [Option.map_some]
      dsimp only
      rw [h.diagnostic_eq hnode.file, Widening.file_move, Widening.file_move, h.isVisible_eq hnode.file,
        Widening.name_move]

theorem Widens.withParent_move (h : g.Widens w g') {node : Node} (hnode : node.Apart w.file) :
    g'.withParent (w.move node) = w.move (g.withParent node) := by
  rw [withParent, withParent, Widening.declared_move, Widening.move, Widening.move]
  rcases hparent : node.declared.parent with _ | name
  · rfl
  · dsimp only
    rw [Option.bind_some, Option.bind_some, h.position?_eq (hnode.parent name hparent)]

theorem Widens.besides_flatMap (h : g.Widens w g') {f f' : Node → List Diagnostic}
    (hfile : ∀ node ∈ g.nodes, node.file ≠ w.file.id)
    (hkept : ∀ node ∈ g.nodes, Diagnostic.besides w.file.id (f' (w.move node)) = f node)
    (hother : ∀ node, node.file = w.file.id → Diagnostic.besides w.file.id (f' node) = []) :
    Diagnostic.besides w.file.id (g'.nodes.flatMap f') = g.nodes.flatMap f :=
  Diagnostic.besides_flatMap (h.filter_nodes hfile) hkept fun node _ hnode => hother node (by simpa using hnode)

/-- **Binding parents with one more file.** -/
theorem Widens.bind (h : g.Widens w g') (hapart : ∀ node ∈ g.nodes, node.Apart w.file) :
    ({ g with nodes := g.nodes.map g.withParent } : Graph).Widens w { g' with nodes := g'.nodes.map g'.withParent }
      ∧ Diagnostic.besides w.file.id (g'.nodes.flatMap g'.parentDiagnostics) = g.nodes.flatMap g.parentDiagnostics := by
  constructor
  · exact h.map_nodes (fun node hnode => h.withParent_move (hapart node hnode)) (fun _ => rfl) fun _ => rfl
  · refine h.besides_flatMap (fun node hnode => (hapart node hnode).file) (fun node hnode => ?_) fun node hnode => ?_
    · rw [h.parentDiagnostics_eq (hapart node hnode)]
      exact (g.refusals_parentDiagnostics node).besides_eq_self (hapart node hnode).file
    · exact (g'.refusals_parentDiagnostics node).besides_eq_nil hnode

end Graph

end EntityModel
