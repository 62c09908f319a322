import EntityModel.Proofs.Outline

/-!
# Problems and the classes they are about

Every problem that a stage finds is about one class: it names the class, and is in its file
(`Diagnostic.About`). All but a missing mapping are errors, so that a class with such a problem keeps the
model from being published (`Refusals`).
-/

namespace EntityModel

/-- A problem of a class names it and is in its file. -/
structure Diagnostic.About (node : Node) (d : Diagnostic) : Prop where
  file : d.file = node.file
  klass : d.klass = some node.name

/-- Problems of a class, each of which keeps its model from being published. -/
def Refusals (node : Node) (ds : List Diagnostic) : Prop := ∀ d ∈ ds, d.About node ∧ d.isError = true

section refusals

variable {node : Node}

theorem refusals_nil : Refusals node [] := fun _ h => absurd h List.not_mem_nil

theorem refusals_singleton {d : Diagnostic} (habout : d.About node) (herror : d.isError = true) :
    Refusals node [d] := by
  intro d' hd'
  obtain rfl := List.mem_singleton.mp hd'
  exact ⟨habout, herror⟩

theorem Refusals.append {first last : List Diagnostic} (h : Refusals node first) (h' : Refusals node last) :
    Refusals node (first ++ last) :=
  fun d hd => (List.mem_append.mp hd).elim (h d) (h' d)

theorem refusals_map {α : Type} {items : List α} {f : α → Diagnostic} (habout : ∀ a, (f a).About node)
    (herror : ∀ a, (f a).isError = true) : Refusals node (items.map f) := by
  intro d hd
  obtain ⟨a, -, rfl⟩ := List.mem_map.mp hd
  exact ⟨habout a, herror a⟩

theorem refusals_collect {σ α : Type} {step : σ → α → σ × List Diagnostic}
    (hstep : ∀ state item, Refusals node (step state item).2) (state : σ) (items : List α) :
    Refusals node (Diagnostic.collect step state items).2 :=
  Diagnostic.collect_induction (fun _ _ found => Refusals node found)
    (fun _ item _ state _ _ h => h.append (hstep state item)) refusals_nil

end refusals

namespace Graph

/-! ### Each stage -/

variable (settings : Settings) (g : Graph) (node : Node)

theorem refusals_parentDiagnostics : Refusals node (g.parentDiagnostics node) := by
  unfold parentDiagnostics
  split
  · exact refusals_nil
  · split
    · exact refusals_singleton ⟨rfl, rfl⟩ rfl
    · split
      · exact refusals_nil
      · exact refusals_singleton ⟨rfl, rfl⟩ rfl

theorem refusals_indexProperty (owner : Nat) (index : SourceIndex) (place : Spanned Property × Nat) :
    Refusals node (g.indexProperty owner node index place).2 := by
  unfold indexProperty
  dsimp only
  split
  · exact refusals_nil
  · split
    · exact refusals_nil
    · exact refusals_singleton ⟨rfl, rfl⟩ rfl

theorem refusals_indexNode (index : SourceIndex) (place : Node × Nat) :
    Refusals place.1 (indexNode settings g index place).2 :=
  refusals_collect (fun index => g.refusals_indexProperty place.1 place.2 index) index _

theorem refusals_aliasProperty? (index : SourceIndex) (declared : Declaration.Alias) :
    Refusals node (g.aliasProperty? index node declared).2 := by
  unfold aliasProperty?
  dsimp only
  split
  · exact refusals_singleton ⟨rfl, rfl⟩ rfl
  · split
    · exact refusals_singleton ⟨rfl, rfl⟩ rfl
    · dsimp only
      split
      · exact refusals_nil
      · exact refusals_singleton ⟨rfl, rfl⟩ rfl

/-- A problem of a property with the class or the key that it leads to. -/
def IsLinkProblem (g : Graph) (node : Node) (property : Spanned Property) (d : Diagnostic) : Prop :=
  ∃ kind message, (kind = .unresolvedReference ∨ kind = .undeclaredDependency)
    ∧ d = g.propertyDiagnostic node property kind message

theorem isLinkProblem_of_mem_visibilityDiagnostics {property : Spanned Property} {target : Node} {d : Diagnostic}
    (hd : d ∈ g.visibilityDiagnostics node property target) : g.IsLinkProblem node property d := by
  unfold visibilityDiagnostics at hd
  split at hd
  · cases hd
  · exact ⟨_, _, Or.inr rfl, List.mem_singleton.mp hd⟩

theorem isLinkProblem_of_mem_binding? {property : Spanned Property} {position : Nat} {target : Node} {d : Diagnostic}
    (hd : d ∈ (binding? settings g node property position target).2) : g.IsLinkProblem node property d := by
  unfold binding? at hd
  dsimp only at hd
  split at hd
  · exact ⟨_, _, Or.inl rfl, List.mem_singleton.mp hd⟩
  · split at hd
    · exact ⟨_, _, Or.inl rfl, List.mem_singleton.mp hd⟩
    · cases hd

/-- All that the binding of a property finds are problems of the property with what it leads to. -/
theorem isLinkProblem_of_mem_boundProperty {property : Spanned Property} {d : Diagnostic}
    (hd : d ∈ (boundProperty settings g node property).2) : g.IsLinkProblem node property d := by
  unfold boundProperty at hd
  split at hd
  · cases hd
  · split at hd
    · dsimp only at hd
      split at hd
      · exact g.isLinkProblem_of_mem_visibilityDiagnostics node hd
      · rcases List.mem_append.mp hd with hd | hd
        · exact g.isLinkProblem_of_mem_visibilityDiagnostics node hd
        · exact g.isLinkProblem_of_mem_binding? settings node hd
    · exact ⟨_, _, Or.inl rfl, List.mem_singleton.mp hd⟩

theorem refusals_boundProperty (property : Spanned Property) :
    Refusals node (boundProperty settings g node property).2 := by
  intro d hd
  obtain ⟨kind, message, rfl | rfl, rfl⟩ := g.isLinkProblem_of_mem_boundProperty settings node hd
  · exact ⟨⟨rfl, rfl⟩, rfl⟩
  · exact ⟨⟨rfl, rfl⟩, rfl⟩

theorem refusals_nameDiagnostics : Refusals node (g.nameDiagnostics node) :=
  refusals_map (fun _ => ⟨rfl, rfl⟩) fun _ => rfl

theorem refusals_labelDiagnostics : Refusals node (g.labelDiagnostics node) := by
  unfold labelDiagnostics
  split
  · exact refusals_nil
  · split
    · exact refusals_nil
    · exact refusals_singleton ⟨rfl, rfl⟩ rfl

theorem about_of_mem_domainDiagnostics {property : Spanned Property} {d : Diagnostic}
    (hd : d ∈ domainDiagnostics settings g node property) : d.About node := by
  unfold domainDiagnostics at hd
  split at hd
  · split at hd
    · obtain rfl := List.mem_singleton.mp hd
      exact ⟨rfl, rfl⟩
    · split at hd
      · exact absurd hd List.not_mem_nil
      · obtain rfl := List.mem_singleton.mp hd
        exact ⟨rfl, rfl⟩
  · exact absurd hd List.not_mem_nil

theorem refusals_keyDiagnostics : Refusals node (g.keyDiagnostics node) := by
  unfold keyDiagnostics
  split
  · exact refusals_singleton ⟨rfl, rfl⟩ rfl
  · exact refusals_singleton ⟨rfl, rfl⟩ rfl
  · split
    · exact refusals_nil
    · exact refusals_singleton ⟨rfl, rfl⟩ rfl
  · exact refusals_nil

theorem refusals_cycleDiagnostic (way : List Nat) : Refusals node [g.cycleDiagnostic node way] :=
  refusals_singleton ⟨rfl, rfl⟩ rfl

theorem refusals_rowDiagnosticsAfter (key : Option Property) (earlier rows : List Declaration.Row) :
    Refusals node (rowDiagnosticsAfter settings g node key earlier rows) := by
  induction rows generalizing earlier with
  | nil => exact refusals_nil
  | cons row rows ih =>
    have hrepeated : Refusals node (g.repeatedRowDiagnostics node earlier row) := by
      unfold repeatedRowDiagnostics
      split
      · exact refusals_singleton ⟨rfl, rfl⟩ rfl
      · exact refusals_nil
    have hmissing : Refusals node (missingValueDiagnostics settings g node row) :=
      refusals_map (fun _ => ⟨rfl, rfl⟩) fun _ => rfl
    have hunknown : Refusals node (g.unknownFieldDiagnostics node row) :=
      refusals_map (fun _ => ⟨rfl, rfl⟩) fun _ => rfl
    have hkey : Refusals node (g.repeatedKeyDiagnostics node key earlier row) := by
      unfold repeatedKeyDiagnostics
      split
      · exact refusals_nil
      · split
        · exact refusals_singleton ⟨rfl, rfl⟩ rfl
        · exact refusals_nil
    exact (((hrepeated.append hmissing).append hunknown).append hkey).append (ih _)

theorem refusals_classRowDiagnostics (place : Node × Nat) :
    Refusals place.1 (classRowDiagnostics settings g place) := by
  unfold classRowDiagnostics
  split
  dsimp only
  split
  · exact refusals_nil
  · split
    · exact refusals_rowDiagnosticsAfter settings g _ _ _ _
    · exact refusals_singleton ⟨rfl, rfl⟩ rfl

end Graph

end EntityModel
