import EntityModel.Proofs.Fallible
import EntityModel.Proofs.Outline
import EntityModel.Proofs.SortedMap

/-!
# What the binding of names establishes

A file sees only files that it reaches through its uses, no two classes have one name, no class has an alias
yet, and the aliases that wait are in the order of their places (`Graph.Declares`). A class knows the position
of its parent, and if no problem is found, its parent is there and its file may refer to it.
-/

namespace EntityModel

/-- A file is another one, or uses it among some files, directly or not. -/
inductive Reaches (files : List LoadedFile) : FileId → FileId → Prop
  | refl (id : FileId) : Reaches files id id
  | uses {file : LoadedFile} {used id : FileId} :
      file ∈ files → used ∈ file.uses → Reaches files used id → Reaches files file.id id

theorem Reaches.mono {files files' : List LoadedFile} (hsub : files ⊆ files') {a b : FileId}
    (h : Reaches files a b) : Reaches files' a b := by
  induction h with
  | refl id => exact .refl id
  | uses hfile hused _ ih => exact .uses (hsub hfile) hused ih

namespace Graph

variable {files : List LoadedFile} {g g' : Graph}

theorem openScope_of_not_mem {file : LoadedFile} (h : file.id ∉ file.uses) :
    g.openScope file = .ok (g.withScope file) := if_neg h

theorem openScope_of_mem {file : LoadedFile} (h : file.id ∈ file.uses) :
    g.openScope file = .error (.outOfBounds g.scopes.length g.scopes.length) := if_pos h

/-- What declaring a file comes to: it does not use itself, and its domains and its classes are declared in turn. -/
theorem declareFile_eq_ok {file : LoadedFile} (h : declareFile g file = .ok g') :
    file.id ∉ file.uses ∧ ∃ mid, file.declared.domains.foldlM (declareDomain file.id) (g.withScope file) = .ok mid
      ∧ file.declared.classes.foldlM (declareClass file.id) mid = .ok g' := by
  obtain ⟨opened, hopened, hrest⟩ := bind_eq_ok_iff.mp h
  by_cases huses : file.id ∈ file.uses
  · rw [openScope_of_mem huses] at hopened
    cases hopened
  · rw [openScope_of_not_mem huses] at hopened
    cases hopened
    exact ⟨huses, bind_eq_ok_iff.mp hrest⟩

theorem declareDomain_eq_ok {file : FileId} {declared : Declaration.Domain}
    (h : declareDomain file g declared = .ok g') :
    g' = { g with domains := g.domains.insert declared.name.value ⟨.ofDeclaration declared, file⟩ } := by
  unfold declareDomain at h
  dsimp only at h
  split at h
  · cases h
  · cases h
    rfl

theorem declareClass_eq_ok {file : FileId} {declared : Declaration.Class} (h : declareClass file g declared = .ok g') :
    g.node? declared.name.value = none ∧ g' = { g with
      nodes := g.nodes ++ [.ofDeclaration file declared]
      pending := g.pending ++ PendingAlias.ofProperties g.nodes.length 0 declared.properties } := by
  unfold declareClass at h
  dsimp only at h
  split at h
  · cases h
  · next hnew =>
    cases h
    exact ⟨hnew, rfl⟩

/-- The aliases that wait are within their classes, and those of one class are in the order of their places. -/
structure Waiting (g : Graph) : Prop where
  placed : ∀ a ∈ g.pending, ∃ node, g.nodes[a.owner]? = some node ∧ a.position ≤ node.properties.length
  ordered : g.pending.Pairwise fun a b => a.owner = b.owner → a.position ≤ b.position

/-- What holds of a graph while files declare what is in them. -/
structure Declares (files : List LoadedFile) (g : Graph) : Prop where
  visible : ∀ scope ∈ g.scopes, ∀ id ∈ scope.visible, Reaches files scope.file.id id
  names : (g.nodes.map Node.name).Nodup
  nodes : ∀ node ∈ g.nodes, ∃ file ∈ files, ∃ declared ∈ file.declared.classes,
    node = .ofDeclaration file.id declared
  waiting : g.Waiting

theorem declares_empty : Declares files {} where
  visible _ h := absurd h List.not_mem_nil
  names := List.nodup_nil
  nodes _ h := absurd h List.not_mem_nil
  waiting := ⟨fun _ h => absurd h List.not_mem_nil, List.Pairwise.nil⟩

theorem mem_of_scope? {id : FileId} {scope : Scope} (h : g.scope? id = some scope) :
    scope ∈ g.scopes ∧ scope.file.id = id := by
  have hfound := List.find?_some h
  exact ⟨List.mem_of_find?_eq_some h, beq_iff_eq.mp hfound⟩

theorem Declares.isVisible (hg : Declares files g) {source target : FileId}
    (h : g.isVisible source target = true) : Reaches files source target := by
  rcases hscope : g.scope? source with _ | scope
  · simp [Graph.isVisible, hscope] at h
  · obtain ⟨hmem, rfl⟩ := mem_of_scope? hscope
    exact hg.visible scope hmem target (by simpa [Graph.isVisible, hscope] using h)

theorem Declares.withScope (hg : Declares files g) {file : LoadedFile} (hfile : file ∈ files) :
    Declares files (g.withScope file) where
  visible scope hscope id hid := by
    rcases List.mem_cons.mp hscope with rfl | hscope
    · rcases List.mem_cons.mp hid with rfl | hid
      · exact .refl _
      · obtain ⟨used, hused, hid⟩ := List.mem_flatMap.mp hid
        obtain ⟨use, huse, hscope⟩ := List.mem_filterMap.mp hused
        obtain ⟨hmem, rfl⟩ := mem_of_scope? hscope
        exact .uses hfile huse (hg.visible used hmem id hid)
    · exact hg.visible scope hscope id hid
  names := hg.names
  nodes := hg.nodes
  waiting := ⟨hg.waiting.placed, hg.waiting.ordered⟩

theorem Declares.declareDomain (hg : Declares files g) {file : FileId} {declared : Declaration.Domain}
    (h : declareDomain file g declared = .ok g') : Declares files g' := by
  obtain rfl := declareDomain_eq_ok h
  exact ⟨hg.visible, hg.names, hg.nodes, hg.waiting.placed, hg.waiting.ordered⟩

theorem node?_eq_none_iff {name : String} : g.node? name = none ↔ name ∉ g.nodes.map Node.name := by
  simp [node?, List.find?_eq_none]

end Graph

namespace PendingAlias

/-- An alias of a class stands behind some of the properties that the class has of other kinds. -/
theorem mem_ofProperties (trigram : Option String) {owner position : Nat} {properties : List Declaration.Property}
    {a : PendingAlias} (h : a ∈ ofProperties owner position properties) :
    a.owner = owner ∧ position ≤ a.position ∧ a.position ≤ position + (properties.filterMap fun p =>
      (Property.ofDeclaration? trigram p).map (Spanned.mk · p.span)).length := by
  induction properties generalizing position with
  | nil => exact absurd h List.not_mem_nil
  | cons property rest ih =>
    cases property with
    | «alias» declared =>
      rcases List.mem_cons.mp h with rfl | h
      · exact ⟨rfl, Nat.le_refl _, Nat.le_add_right _ _⟩
      · exact ih h
    | _ =>
      obtain ⟨howner, hfirst, hlast⟩ := @ih (position + 1) h
      exact ⟨howner, Nat.le_of_succ_le hfirst,
        Nat.le_trans hlast (Nat.le_of_eq (Nat.add_right_comm position 1 _))⟩

theorem declared_mem_ofProperties {owner position : Nat} {properties : List Declaration.Property} {a : PendingAlias}
    (h : a ∈ ofProperties owner position properties) : .alias a.declared ∈ properties := by
  induction properties generalizing position with
  | nil => exact absurd h List.not_mem_nil
  | cons property rest ih =>
    cases property with
    | «alias» declared =>
      rcases List.mem_cons.mp h with rfl | h
      · exact List.mem_cons_self
      · exact List.mem_cons_of_mem _ (ih h)
    | _ => exact List.mem_cons_of_mem _ (ih h)

theorem pairwise_ofProperties (owner position : Nat) (properties : List Declaration.Property) :
    (ofProperties owner position properties).Pairwise fun a b => a.owner = b.owner → a.position ≤ b.position := by
  induction properties generalizing position with
  | nil => exact List.Pairwise.nil
  | cons property rest ih =>
    cases property with
    | «alias» declared => exact List.pairwise_cons.mpr ⟨fun b hb _ => (mem_ofProperties none hb).2.1, ih position⟩
    | _ => exact ih (position + 1)

/-- The aliases of classes that stand one behind another from a position on. -/
def ofNodes (owner : Nat) : List Node → List PendingAlias
  | [] => []
  | node :: rest => ofProperties owner 0 node.declared.properties ++ ofNodes (owner + 1) rest

theorem ofNodes_append (owner : Nat) (first last : List Node) :
    ofNodes owner (first ++ last) = ofNodes owner first ++ ofNodes (owner + first.length) last := by
  induction first generalizing owner with
  | nil => rfl
  | cons node rest ih =>
    rw [List.cons_append, ofNodes, ih, ofNodes, List.append_assoc, List.length_cons, Nat.add_assoc,
      Nat.add_comm 1]

theorem owner_of_mem_ofNodes {owner : Nat} {nodes : List Node} {a : PendingAlias} (h : a ∈ ofNodes owner nodes) :
    owner ≤ a.owner ∧ a.owner < owner + nodes.length := by
  induction nodes generalizing owner with
  | nil => exact absurd h List.not_mem_nil
  | cons node rest ih =>
    rw [List.length_cons]
    rcases List.mem_append.mp h with h | h
    · have howner := (mem_ofProperties none h).1
      omega
    · obtain ⟨hle, hlt⟩ := ih h
      omega

theorem exists_node_of_mem_ofNodes {owner : Nat} {nodes : List Node} {a : PendingAlias} (h : a ∈ ofNodes owner nodes) :
    ∃ node, nodes[a.owner - owner]? = some node ∧ .alias a.declared ∈ node.declared.properties := by
  induction nodes generalizing owner with
  | nil => exact absurd h List.not_mem_nil
  | cons node rest ih =>
    rcases List.mem_append.mp h with h | h
    · refine ⟨node, ?_, declared_mem_ofProperties h⟩
      rw [(mem_ofProperties none h).1, Nat.sub_self, List.getElem?_cons_zero]
    · obtain ⟨node', hnode', hdeclared⟩ := ih h
      refine ⟨node', ?_, hdeclared⟩
      have hlt := (owner_of_mem_ofNodes h).1
      rw [show a.owner - owner = a.owner - (owner + 1) + 1 by omega, List.getElem?_cons_succ, hnode']

end PendingAlias

namespace Graph

variable {files : List LoadedFile} {g g' : Graph}

theorem Declares.declareClass (hg : Declares files g) {file : LoadedFile} (hfile : file ∈ files)
    {declared : Declaration.Class} (hdeclared : declared ∈ file.declared.classes)
    (h : declareClass file.id g declared = .ok g') : Declares files g' := by
  obtain ⟨hnew, rfl⟩ := declareClass_eq_ok h
  refine ⟨hg.visible, ?_, fun node hnode => ?_, fun a ha => ?_, ?_⟩
  · rw [List.map_append, List.map_singleton, List.nodup_append]
    refine ⟨hg.names, List.pairwise_singleton _ _, fun name hname other hother heq => ?_⟩
    obtain rfl := List.mem_singleton.mp hother
    exact node?_eq_none_iff.mp hnew ((show name = declared.name.value from heq) ▸ hname)
  · rcases List.mem_append.mp hnode with hnode | hnode
    · exact hg.nodes node hnode
    · exact ⟨file, hfile, declared, hdeclared, List.mem_singleton.mp hnode⟩
  · rcases List.mem_append.mp ha with ha | ha
    · obtain ⟨node, hnode, hposition⟩ := hg.waiting.placed a ha
      exact ⟨node, List.getElem?_append_left (List.getElem?_eq_some_iff.mp hnode).1 ▸ hnode, hposition⟩
    · obtain ⟨howner, -, hposition⟩ := PendingAlias.mem_ofProperties (declared.trigram.map Spanned.value) ha
      rw [Nat.zero_add] at hposition
      exact ⟨.ofDeclaration file.id declared, by rw [howner, List.getElem?_concat_length], hposition⟩
  · refine List.pairwise_append.mpr ⟨hg.waiting.ordered, PendingAlias.pairwise_ofProperties _ _ _, ?_⟩
    intro a ha b hb howner
    obtain ⟨node, hnode, -⟩ := hg.waiting.placed a ha
    have hlt := (List.getElem?_eq_some_iff.mp hnode).1
    rw [howner, (PendingAlias.mem_ofProperties none hb).1] at hlt
    exact absurd hlt (Nat.lt_irrefl _)

theorem Declares.declareFile (hg : Declares files g) {file : LoadedFile} (hfile : file ∈ files)
    (h : declareFile g file = .ok g') : Declares files g' := by
  obtain ⟨-, mid, hdomains, hclasses⟩ := declareFile_eq_ok h
  have hmid := foldlM_induction (fun _ _ _ _ hs h => Declares.declareDomain hs h) (hg.withScope hfile) hdomains
  exact foldlM_induction (fun _ _ _ hmem hs h => Declares.declareClass hs hfile hmem h) hmid hclasses

theorem declares_of_foldlM (h : files.foldlM Graph.declareFile {} = .ok g) : Declares files g :=
  foldlM_induction (fun _ _ _ hfile hs h => Declares.declareFile hs hfile h) declares_empty h

/-! ### The declarations of a file -/

theorem declareDomains_eq_ok {id : FileId} {declared : List Declaration.Domain}
    (h : declared.foldlM (declareDomain id) g = .ok g') :
    ∃ domains, g' = { g with domains }
      ∧ ∀ name ∉ declared.map (·.name.value), domains.get? name = g.domains.get? name := by
  induction declared generalizing g with
  | nil =>
    obtain rfl := Except.ok.inj h
    exact ⟨g.domains, rfl, fun _ _ => rfl⟩
  | cons domain rest ih =>
    rw [List.foldlM_cons] at h
    obtain ⟨next, hnext, hrest⟩ := bind_eq_ok_iff.mp h
    obtain ⟨domains, rfl, hdomains⟩ := ih hrest
    obtain rfl := declareDomain_eq_ok hnext
    refine ⟨domains, rfl, fun name hname => ?_⟩
    rw [List.map_cons, List.mem_cons, not_or] at hname
    exact (hdomains name hname.2).trans (SortedMap.get?_insert_of_ne _ _ (Ne.symm hname.1))

theorem declareClasses_eq_ok {id : FileId} {declared : List Declaration.Class}
    (h : declared.foldlM (declareClass id) g = .ok g') :
    g' = { g with
      nodes := g.nodes ++ declared.map (Node.ofDeclaration id)
      pending := g.pending ++ PendingAlias.ofNodes g.nodes.length (declared.map (Node.ofDeclaration id)) } := by
  induction declared generalizing g with
  | nil =>
    obtain rfl := Except.ok.inj h
    simp only [List.map_nil, List.append_nil, PendingAlias.ofNodes]
  | cons declared rest ih =>
    rw [List.foldlM_cons] at h
    obtain ⟨next, hnext, hrest⟩ := bind_eq_ok_iff.mp h
    obtain rfl := ih hrest
    obtain ⟨-, rfl⟩ := declareClass_eq_ok hnext
    simp only [List.map_cons, List.append_assoc, List.singleton_append, List.length_append, List.length_singleton,
      PendingAlias.ofNodes]
    rfl

/-! ### The scopes that are opened -/

theorem scopes_of_foldlM (h : files.foldlM declareFile g = .ok g') :
    g'.scopes.map Scope.file = files.reverse ++ g.scopes.map Scope.file := by
  induction files generalizing g with
  | nil =>
    cases h
    rfl
  | cons file rest ih =>
    rw [List.foldlM_cons] at h
    obtain ⟨next, hnext, hrest⟩ := bind_eq_ok_iff.mp h
    obtain ⟨-, mid, hdomains, hclasses⟩ := declareFile_eq_ok hnext
    obtain ⟨domains, rfl, -⟩ := declareDomains_eq_ok hdomains
    obtain rfl := declareClasses_eq_ok hclasses
    rw [ih hrest, List.reverse_cons, List.append_assoc]
    rfl

/-! ### The graph that is bound -/

/-- What is established when all names are bound, and what later stages leave alone. -/
structure Bound (files : List LoadedFile) (g : Graph) : Prop where
  visible : ∀ {source target}, g.isVisible source target = true → Reaches files source target
  names : (g.nodes.map Node.name).Nodup
  declared : ∀ node ∈ g.nodes, ∃ file ∈ files, file.id = node.file ∧ node.declared ∈ file.declared.classes
  parent : ∀ node ∈ g.nodes, node.parent = node.declared.parent.bind fun name => g.position? name.value

/-- The parents of all classes are there, and their files may be referred to. -/
def ParentsVisible (g : Graph) : Prop :=
  ∀ node ∈ g.nodes, ∀ name, node.declared.parent = some name →
    ∃ parent, g.node? name.value = some parent ∧ g.isVisible node.file parent.file = true

theorem map_name_outline (g : Graph) : g.outline.nodes.map Node.name = g.nodes.map Node.name := by
  simp [outline, Function.comp_def]

theorem node?_congr (h : g.outline = g'.outline) {name : String} {node : Node} (hnode : g.node? name = some node) :
    ∃ node', g'.node? name = some node' ∧ node'.outline = node.outline := by
  have houtline := congrArg (Option.map Node.outline) hnode
  rw [← node?_outline, h, node?_outline, Option.map_some] at houtline
  exact Option.map_eq_some_iff.mp houtline

theorem Bound.node?_of_mem (hg : Bound files g) {node : Node} (hnode : node ∈ g.nodes) :
    g.node? node.name = some node := by
  obtain ⟨before, after, heq⟩ := List.append_of_mem hnode
  have hnames := hg.names
  rw [heq, List.map_append, List.map_cons, List.nodup_append] at hnames
  have hbefore : before.find? (·.name == node.name) = none := by
    refine List.find?_eq_none.mpr fun other hother hname => ?_
    exact hnames.2.2 other.name (List.mem_map_of_mem hother) node.name List.mem_cons_self (by simpa using hname)
  rw [node?, heq, List.find?_append, hbefore, Option.none_or, List.find?_cons_of_pos (by simp)]

theorem Bound.mono (hg : Bound files g) {files' : List LoadedFile} (hsub : files ⊆ files') : Bound files' g where
  visible hvisible := (hg.visible hvisible).mono hsub
  names := hg.names
  declared node hnode := by
    obtain ⟨file, hfile, hrest⟩ := hg.declared node hnode
    exact ⟨file, hsub hfile, hrest⟩
  parent := hg.parent

theorem Bound.congr (hg : Bound files g) (h : g.outline = g'.outline) : Bound files g' where
  visible hvisible := hg.visible (isVisible_congr h ▸ hvisible)
  names := by
    rw [← map_name_outline, ← h, map_name_outline]
    exact hg.names
  declared node hnode := by
    obtain ⟨node', hnode', heq⟩ := mem_nodes_congr h.symm hnode
    rw [← Node.file_outline, ← Node.declared_outline, heq]
    exact hg.declared node' hnode'
  parent node hnode := by
    obtain ⟨node', hnode', heq⟩ := mem_nodes_congr h.symm hnode
    have hparent := hg.parent node' hnode'
    simp only [← Node.parent_outline node', ← Node.declared_outline node', ← heq, position?_congr h] at hparent
    exact hparent

theorem ParentsVisible.congr (hg : ParentsVisible g) (h : g.outline = g'.outline) : ParentsVisible g' := by
  intro node hnode name hname
  obtain ⟨node', hnode', heq⟩ := mem_nodes_congr h.symm hnode
  rw [← Node.declared_outline, heq] at hname
  obtain ⟨parent, hparent, hvisible⟩ := hg node' hnode' name hname
  obtain ⟨parent', hparent', hsame⟩ := node?_congr h hparent
  refine ⟨parent', hparent', ?_⟩
  rw [← Node.file_outline node, heq, ← Node.file_outline parent', hsame, ← isVisible_congr h]
  exact hvisible

theorem bind_eq_ok {problems : List Diagnostic} (h : Graph.bind files = .ok (g, problems)) :
    ∃ declared, files.foldlM Graph.declareFile {} = .ok declared
      ∧ g = { declared with nodes := declared.nodes.map declared.withParent }
      ∧ problems = declared.nodes.flatMap declared.parentDiagnostics := by
  obtain ⟨declared, hdeclared, hrest⟩ := bind_eq_ok_iff.mp h
  cases hrest
  exact ⟨declared, hdeclared, rfl, rfl⟩

theorem position?_withParent (g : Graph) (f : Node → Node) (hname : ∀ node, (f node).name = node.name)
    (name : String) : ({ g with nodes := g.nodes.map f } : Graph).position? name = g.position? name := by
  rw [position?, position?, List.findIdx?_map]
  simp only [Function.comp_def, hname]

theorem bound_of_bind {problems : List Diagnostic} (h : Graph.bind files = .ok (g, problems)) :
    Bound files g := by
  obtain ⟨declared, hdeclared, rfl, -⟩ := bind_eq_ok h
  have hg := declares_of_foldlM hdeclared
  refine ⟨fun hvisible => hg.isVisible hvisible, ?_, fun node hnode => ?_, fun node hnode => ?_⟩
  · rw [List.map_map]
    exact hg.names
  · obtain ⟨node, hmem, rfl⟩ := List.mem_map.mp hnode
    obtain ⟨file, hfile, written, hwritten, rfl⟩ := hg.nodes node hmem
    exact ⟨file, hfile, rfl, hwritten⟩
  · obtain ⟨node, -, rfl⟩ := List.mem_map.mp hnode
    rw [withParent]
    simp only [position?_withParent declared declared.withParent fun _ => rfl]

theorem waiting_of_bind {problems : List Diagnostic} (h : Graph.bind files = .ok (g, problems)) : g.Waiting := by
  obtain ⟨declared, hdeclared, rfl, -⟩ := bind_eq_ok h
  have hg := (declares_of_foldlM hdeclared).waiting
  refine ⟨fun a ha => ?_, hg.ordered⟩
  obtain ⟨node, hnode, hposition⟩ := hg.placed a ha
  exact ⟨declared.withParent node, by rw [List.getElem?_map, hnode, Option.map_some], hposition⟩

theorem ofDeclaration?_of_bind {problems : List Diagnostic} (h : Graph.bind files = .ok (g, problems)) {node : Node}
    (hnode : node ∈ g.nodes) {p : Spanned Property} (hp : p ∈ node.properties) :
    ∃ trigram declared, Property.ofDeclaration? trigram declared = some p.value := by
  obtain ⟨declared, hdeclared, rfl, -⟩ := bind_eq_ok h
  obtain ⟨node, hmem, rfl⟩ := List.mem_map.mp hnode
  obtain ⟨file, -, written, -, rfl⟩ := (declares_of_foldlM hdeclared).nodes node hmem
  obtain ⟨property, -, hproperty⟩ := List.mem_filterMap.mp hp
  obtain ⟨value, hvalue, rfl⟩ := Option.map_eq_some_iff.mp hproperty
  exact ⟨_, property, hvalue⟩

theorem isAlias_of_bind {problems : List Diagnostic} (h : Graph.bind files = .ok (g, problems)) {node : Node}
    (hnode : node ∈ g.nodes) {p : Spanned Property} (hp : p ∈ node.properties) : p.value.isAlias = false := by
  obtain ⟨trigram, property, hvalue⟩ := ofDeclaration?_of_bind h hnode hp
  generalize p.value = value at hvalue
  cases property with
  | «alias» p => cases hvalue
  | _ => cases hvalue; rfl

theorem parentsVisible_of_bind {problems : List Diagnostic} (h : Graph.bind files = .ok (g, problems))
    (hclean : Diagnostic.hasErrors problems = false) : ParentsVisible g := by
  obtain ⟨declared, -, rfl, rfl⟩ := bind_eq_ok h
  intro node hnode name hname
  obtain ⟨node, hmem, rfl⟩ := List.mem_map.mp hnode
  have hnode' := Diagnostic.hasErrors_of_flatMap hclean hmem
  obtain ⟨name, span⟩ := name
  change node.declared.parent = some ⟨name, span⟩ at hname
  rw [parentDiagnostics, hname] at hnode'
  dsimp only at hnode'
  rcases hparent : declared.node? name with _ | parent
  · rw [hparent] at hnode'
    cases hnode'
  · rw [hparent] at hnode'
    dsimp only at hnode'
    split at hnode'
    · next hvisible =>
      refine ⟨declared.withParent parent, ?_, hvisible⟩
      rw [node?, List.find?_map]
      exact congrArg (Option.map declared.withParent) hparent
    · cases hnode'

end Graph

/-! ### Files to try things on -/

namespace Written

/-- A word whose place does not matter. -/
def word (text : String) : Spanned String := ⟨text, ⟨0, 0⟩⟩

def field (name domain : String) (span : Span) : Declaration.Property :=
  .field { name := word name, domain := word domain, span }

def copy (token : String) (span : Span) : Declaration.Property := .alias ⟨word token, none, span⟩

def plain (name : String) (properties : List Declaration.Property) (span : Span) : Declaration.Class :=
  { name := word name, properties, span }

/-- A file that uses those of some other names. -/
def dataFile (name : String) (uses : List String) (domains : List Declaration.Domain)
    (classes : List Declaration.Class) : LoadedFile :=
  ⟨⟨"App", "Data", name⟩, "", ⟨uses.map fun used => ⟨⟨"App", "Data", used⟩, ⟨0, 0⟩⟩, domains, classes⟩⟩

end Written

end EntityModel
