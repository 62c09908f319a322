import EntityModel.Graph
import EntityModel.Naming

/-!
# Binding names

The declarations of the files, in load order, become domains and classes. A name declared twice is a
fault; a parent that is unknown, or that the file may not refer to, is a diagnostic. Main definition:
`Graph.bind`.
-/

namespace EntityModel

/-- The property that a declaration makes, for the trigram of its class. An alias makes none before it
is expanded, and an association is not bound yet. -/
def Property.ofDeclaration? (trigram : Option String) : Declaration.Property → Option Property
  | .field p => some <| .field {
      name := p.name.value
      label := p.label
      domain := p.domain.value
      primaryKey := p.primaryKey
      required := p.required
      unique := p.unique
      many := p.many
      default := p.default.map Spanned.value
      column := p.column.getD (Naming.fieldColumn trigram p.name.value) }
  | .association p => some <| .association {
      name := p.name.value
      label := p.label
      target := p.target.value
      role := p.role
      required := p.required
      many := p.many }
  | .composition p => some <| .composition {
      name := p.name.value
      label := p.label
      target := p.target.value
      multiplicity := p.multiplicity }
  | .alias _ => none

/-- A class as it is declared in a file, without its aliases and without a parent. -/
def Node.ofDeclaration (file : FileId) (declared : Declaration.Class) : Node where
  file := file
  declared := declared
  properties := declared.properties.filterMap fun p =>
    (Property.ofDeclaration? (declared.trigram.map Spanned.value) p).map (⟨·, p.span⟩)

/-- The aliases among the properties of the class at `owner`, after `position` other properties. -/
def PendingAlias.ofProperties (owner position : Nat) : List Declaration.Property → List PendingAlias
  | [] => []
  | .alias declared :: rest => ⟨owner, position, declared⟩ :: ofProperties owner position rest
  | _ :: rest => ofProperties owner (position + 1) rest

namespace Graph

/-- The graph with the scope of one more file, which sees itself and what the files it uses see. -/
def withScope (g : Graph) (file : LoadedFile) : Graph :=
  let used := (file.uses.filterMap g.scope?).flatMap Scope.visible
  { g with scopes := ⟨file, file.id :: used⟩ :: g.scopes }

theorem scope?_withScope (g : Graph) (file : LoadedFile) (id : FileId) :
    (g.withScope file).scope? id
      = if file.id = id then some ⟨file, file.id :: (file.uses.filterMap g.scope?).flatMap Scope.visible⟩
        else g.scope? id := by
  rw [scope?, withScope, List.find?_cons]
  by_cases hid : file.id = id
  · simp only [hid, beq_self_eq_true, if_true]
  · simp only [beq_false_of_ne hid, if_neg hid]
    rfl

/-- Opens the scope of the next file. The file has its place before what it uses is looked up and its scope
after that, so that a use of the file itself asks for a scope behind the last. -/
def openScope (g : Graph) (file : LoadedFile) : Except Fault Graph :=
  if file.id ∈ file.uses then .error (.outOfBounds g.scopes.length g.scopes.length)
  else .ok (g.withScope file)

def declareDomain (file : FileId) (g : Graph) (declared : Declaration.Domain) : Except Fault Graph :=
  let name := declared.name.value
  match g.domains.get? name with
  | some first => .error (.duplicateDomain name first.file file)
  | none => .ok { g with domains := g.domains.insert name ⟨.ofDeclaration declared, file⟩ }

def declareClass (file : FileId) (g : Graph) (declared : Declaration.Class) : Except Fault Graph :=
  let name := declared.name.value
  match g.node? name with
  | some first => .error (.duplicateClass name first.file file)
  | none => .ok { g with
      nodes := g.nodes ++ [.ofDeclaration file declared]
      pending := g.pending ++ PendingAlias.ofProperties g.nodes.length 0 declared.properties }

/-- The positions of classes are looked up as in a map that gets an entry with each class. -/
theorem position?_declareClass {file : FileId} {g g' : Graph} {declared : Declaration.Class}
    (h : declareClass file g declared = .ok g') (name : String) :
    g'.position? name = if declared.name.value = name then some g.nodes.length else g.position? name := by
  unfold declareClass at h
  dsimp only at h
  split at h
  · cases h
  · next hnew =>
    cases h
    have hlast : (Node.ofDeclaration file declared).name = declared.name.value := rfl
    rw [position?, List.findIdx?_append, List.findIdx?_singleton, hlast]
    by_cases hname : declared.name.value = name
    · subst hname
      have hnone : g.nodes.findIdx? (·.name == declared.name.value) = none :=
        List.findIdx?_eq_none_iff.mpr fun node hnode => by simpa using List.find?_eq_none.mp hnew node hnode
      simp only [hnone, beq_self_eq_true, if_true, Option.map_some, Nat.zero_add, Option.none_or]
    · simp only [beq_false_of_ne hname, if_neg hname, position?, Option.or_none, Bool.false_eq_true, if_false,
        Option.map_none]

/-- Declares what a file declares, its domains before its classes. -/
def declareFile (g : Graph) (file : LoadedFile) : Except Fault Graph := do
  let g ← g.openScope file
  let g ← file.declared.domains.foldlM (declareDomain file.id) g
  file.declared.classes.foldlM (declareClass file.id) g

def parentDiagnostics (g : Graph) (node : Node) : List Diagnostic :=
  match node.declared.parent with
  | none => []
  | some ⟨name, span⟩ => match g.node? name with
    | none => [g.diagnostic node .unresolvedReference span
        s!"class '{node.name}' extends undeclared class '{name}'"]
    | some parent =>
      if g.isVisible node.file parent.file then []
      else [g.diagnostic node .undeclaredDependency span
        s!"class '{node.name}' extends '{name}' from {parent.file.text} which its file does not use"]

/-- A class with the position of its parent. A parent that the file may not refer to still counts. -/
def withParent (g : Graph) (node : Node) : Node :=
  { node with parent := node.declared.parent.bind fun name => g.position? name.value }

/-- The graph of files in load order, and the problems of classes with their parents. -/
def bind (files : List LoadedFile) : Except Fault (Graph × List Diagnostic) := do
  let g ← files.foldlM declareFile {}
  return ({ g with nodes := g.nodes.map g.withParent }, g.nodes.flatMap g.parentDiagnostics)

end Graph

end EntityModel
