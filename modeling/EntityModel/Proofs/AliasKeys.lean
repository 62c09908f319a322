import EntityModel.Proofs.AliasSources
import EntityModel.Proofs.Aliases
import EntityModel.Proofs.Binding
import EntityModel.Proofs.ForeignKeys

/-!
# Keys of alias sources

The key of a property joins two names that may have underscores in them, so that properties of two classes may have one
key. A token is cut at its underscores: its key is that of one class and one property only, and no conflict of the
index is about it (`AliasToken.key_names_source`).
-/

namespace EntityModel

namespace Graph

variable {settings : Settings} {g g' : Graph}

/-! ### Owners of keys -/

/-- A class has a property of a key. -/
def Owns (g : Graph) (position : Nat) (key : String) : Prop :=
  ∃ node, g.nodes[position]? = some node ∧ ∃ p ∈ node.properties, AliasToken.indexKey node.name p.value.name = key

/-- A graph as a run makes it: with its names bound, and then with aliases expanded and foreign keys bound. -/
inductive Made (settings : Settings) : Graph → Prop
  | bound {files : List LoadedFile} {g : Graph} {problems : List Diagnostic} :
      Graph.bind files = .ok (g, problems) → Made settings g
  | expanded {g : Graph} : Made settings g → Made settings (g.expandAliases settings).1
  | linked {g : Graph} : Made settings g → Made settings (g.bindForeignKeys settings).1

/-- A problem reports that the key of a property is also that of a property of another class. -/
inductive ReportsConflict (g : Graph) (d : Diagnostic) : String → Prop
  | intro {i j : Nat} {first node : Node} {p : Spanned Property} :
      g.nodes[i]? = some first → g.Owns i (AliasToken.indexKey node.name p.value.name) →
      g.nodes[j]? = some node → p ∈ node.properties → i ≠ j →
      d = g.propertyDiagnostic node p .conflictingAlias
        s!"alias key '{AliasToken.indexKey node.name p.value.name}' is produced by both '{first.name}' and '{node.name}'" →
      ReportsConflict g d (AliasToken.indexKey node.name p.value.name)

theorem names_congr (h : g.outline = g'.outline) : g.nodes.map Node.name = g'.nodes.map Node.name := by
  rw [← map_name_outline, h, map_name_outline]

theorem Made.names (h : Made settings g) : (g.nodes.map Node.name).Nodup := by
  induction h with
  | bound hbind => exact (bound_of_bind hbind).names
  | expanded _ ih =>
    rw [names_congr (outline_expandAliases _)]
    exact ih
  | linked _ ih =>
    rw [names_congr (outline_bindForeignKeys _)]
    exact ih

theorem Owns.name_eq {text : String} {token : AliasToken} (htoken : AliasToken.parse? text = some token) {i : Nat}
    {node : Node} (h : g.Owns i token.key) (hnode : g.nodes[i]? = some node) : node.name = token.klass := by
  obtain ⟨node', hnode', p, -, hkey⟩ := h
  obtain rfl : node' = node := by simpa [hnode'] using hnode
  exact ((AliasToken.indexKey_eq_key_iff htoken).mp hkey).1

theorem Owns.unique {text : String} {token : AliasToken} (htoken : AliasToken.parse? text = some token)
    (hnames : (g.nodes.map Node.name).Nodup) {i j : Nat} (hi : g.Owns i token.key) (hj : g.Owns j token.key) :
    i = j := by
  obtain ⟨node, hnode, -⟩ := id hi
  obtain ⟨other, hother, -⟩ := id hj
  have hname := (hi.name_eq htoken hnode).trans (hj.name_eq htoken hother).symm
  have hlt : i < (g.nodes.map Node.name).length := by
    rw [List.length_map]
    exact (List.getElem?_eq_some_iff.mp hnode).1
  refine (List.getElem?_inj hlt hnames).mp ?_
  rw [List.getElem?_map, List.getElem?_map, hnode, hother, Option.map_some, Option.map_some, hname]

/-! ### Conflicts of the index -/

/-- What an index of sources has come to: its places are of classes with the key, and its problems are conflicts. -/
structure Indexes (g : Graph) (index : SourceIndex) (found : List Diagnostic) : Prop where
  owns : ∀ key place, index.lookup key = some place → g.Owns place.owner key
  conflicts : ∀ d ∈ found, ∃ key, g.ReportsConflict d key

theorem Indexes.indexProperty {owner : Nat} {node : Node} {index : SourceIndex} {found : List Diagnostic}
    (h : g.Indexes index found) (hnode : g.nodes[owner]? = some node) {place : Spanned Property × Nat}
    (hp : place.1 ∈ node.properties) :
    g.Indexes (g.indexProperty owner node index place).1 (found ++ (g.indexProperty owner node index place).2) := by
  obtain ⟨p, position⟩ := place
  unfold Graph.indexProperty
  dsimp only
  split
  · next hnone =>
    refine ⟨fun key place hplace => ?_, by simpa using h.conflicts⟩
    rw [List.lookup_append] at hplace
    rcases hold : index.lookup key with _ | old
    · rw [hold, Option.none_or, List.lookup_cons] at hplace
      split at hplace
      · next hkey =>
        obtain rfl : (⟨owner, position⟩ : PropertyPosition) = place := by simpa using hplace
        exact ⟨node, hnode, p, hp, (beq_iff_eq.mp hkey).symm⟩
      · simp at hplace
    · rw [hold, Option.some_or] at hplace
      exact h.owns key place (hold.trans hplace)
  · next first hfirst =>
    have howns := h.owns _ _ hfirst
    split
    · exact ⟨h.owns, by simpa using h.conflicts⟩
    · next hother =>
      obtain ⟨other, hnode', -⟩ := id howns
      refine ⟨h.owns, List.forall_mem_append.mpr ⟨h.conflicts, List.forall_mem_singleton.mpr
        ⟨AliasToken.indexKey node.name p.value.name, ?_⟩⟩⟩
      refine .intro hnode' howns hnode hp hother ?_
      rw [hnode', Option.map_some, Option.getD_some]

theorem Indexes.indexNode {index : SourceIndex} {found : List Diagnostic} (h : g.Indexes index found)
    {place : Node × Nat} (hnode : g.nodes[place.2]? = some place.1) :
    g.Indexes (indexNode settings g index place).1 (found ++ (indexNode settings g index place).2) := by
  refine Diagnostic.collect_induction (fun _ index problems => g.Indexes index (found ++ problems)) ?_ (by simpa using h)
  intro before p after index problems hsplit hindexes
  rw [← List.append_assoc]
  refine hindexes.indexProperty hnode ?_
  have hmem := (List.mem_filter.mp (hsplit ▸ List.mem_append_right before List.mem_cons_self)).1
  exact List.mem_of_getElem? (List.mem_zipIdx_iff_getElem?.mp hmem)

theorem indexes_sourceIndex (settings : Settings) (g : Graph) :
    g.Indexes (sourceIndex settings g).1 (sourceIndex settings g).2 := by
  refine Diagnostic.collect_induction (fun _ index found => g.Indexes index found) ?_ ⟨by simp, by simp⟩
  intro before place after index found hsplit hindexes
  have hmem : place ∈ g.nodes.zipIdx := hsplit ▸ List.mem_append_right before List.mem_cons_self
  exact hindexes.indexNode (List.mem_zipIdx_iff_getElem?.mp hmem)

theorem kind_of_expandAlias {index : SourceIndex} {state : Graph} {pending : PendingAlias} :
    ∀ d ∈ (expandAlias index state pending).2, d.kind ≠ .conflictingAlias := by
  rcases hnode : state.nodes[pending.owner]? with _ | node
  · simp [expandAlias, hnode]
  · rw [expandAlias_snd hnode]
    unfold aliasProperty?
    dsimp only
    split
    · simp [fieldDiagnostic, diagnostic]
    · split
      · simp [fieldDiagnostic, diagnostic]
      · dsimp only
        split <;> simp [fieldDiagnostic, diagnostic]

theorem exists_conflict {d : Diagnostic} (hd : d ∈ (g.expandAliases settings).2) (hkind : d.kind = .conflictingAlias) :
    ∃ key, g.ReportsConflict d key := by
  rcases List.mem_append.mp hd with hd | hd
  · exact (indexes_sourceIndex settings g).conflicts d hd
  · have hother : ∀ d ∈ (Diagnostic.collect (expandAlias (sourceIndex settings g).1) { g with pending := [] }
        g.pending).2, d.kind ≠ .conflictingAlias := by
      refine Diagnostic.collect_induction (fun _ _ found => ∀ d ∈ found, d.kind ≠ .conflictingAlias) ?_ (by simp)
      intro _ _ _ _ _ _ hfound
      exact List.forall_mem_append.mpr ⟨hfound, kind_of_expandAlias⟩
    exact absurd hkind (hother d hd)

theorem ReportsConflict.owners {d : Diagnostic} {key : String} (h : g.ReportsConflict d key) :
    ∃ i j, i ≠ j ∧ g.Owns i key ∧ g.Owns j key := by
  obtain ⟨-, howns, hnode, hp, hne, -⟩ := h
  exact ⟨_, _, hne, howns, _, hnode, _, hp, rfl⟩

end Graph

open EntityModel.Graph (Made sourceIndex)

/-- **The key of a token names its source.** It is the key of the class and the property that the token is cut into, and
of no others. So in every graph that a run makes at most one class has properties of this key, which is that of the
place in the index, and every key that is reported as one of two classes is another. -/
theorem AliasToken.key_names_source {text : String} {token : AliasToken} (htoken : parse? text = some token) :
    (∀ klass property, indexKey klass property = token.key ↔ klass = token.klass ∧ property = token.property)
    ∧ ∀ settings g, Made settings g →
      (∀ i j, g.Owns i token.key → g.Owns j token.key → i = j)
      ∧ (∀ place, (sourceIndex settings g).1.lookup token.key = some place → g.Owns place.owner token.key)
      ∧ ∀ d ∈ (g.expandAliases settings).2, d.kind = .conflictingAlias →
        (∃ key, g.ReportsConflict d key) ∧ ∀ key, g.ReportsConflict d key → token.key ≠ key := by
  refine ⟨fun klass property => indexKey_eq_key_iff htoken, fun settings g hmade => ⟨?_, ?_, ?_⟩⟩
  · intro i j hi hj
    exact hi.unique htoken hmade.names hj
  · exact (Graph.indexes_sourceIndex settings g).owns token.key
  · intro d hd hkind
    refine ⟨Graph.exists_conflict hd hkind, ?_⟩
    rintro _ hreports rfl
    obtain ⟨i, j, hne, hi, hj⟩ := hreports.owners
    exact hne (hi.unique htoken hmade.names hj)

open Written (field dataFile plain)

/-- Two classes whose names and properties join to one key. -/
def crossedNames : List LoadedFile :=
  [dataFile "A" [] [] [plain "A" [field "B_C" "DO_TEXT" ⟨0, 0⟩, field "X" "DO_TEXT" ⟨0, 0⟩] ⟨0, 0⟩,
    plain "A_B" [field "C" "DO_TEXT" ⟨0, 0⟩] ⟨0, 0⟩]]

theorem AliasToken.key_names_source_crossed : ∃ token g problems, parse? "A_X_Own" = some token
    ∧ Graph.bind crossedNames = .ok (g, problems) ∧ token.key = "A_X" ∧ g.Owns 0 token.key
    ∧ (∀ j, g.Owns j token.key → j = 0)
    ∧ ∃ d ∈ (g.expandAliases {}).2, ∃ key, g.ReportsConflict d key ∧ token.key ≠ key := by
  have hparse : parse? "A_X_Own" = some ⟨"A", "X", some "Own", none⟩ := by decide +kernel
  have hok : (Graph.bind crossedNames).toOption.map (fun bound =>
      (bound.1.nodes.map fun node => (node.name, node.properties.map (·.value.name)),
        (bound.1.expandAliases {}).2.map Diagnostic.kind))
      = some ([("A", ["B_C", "X"]), ("A_B", ["C"])], [.conflictingAlias]) := by decide +kernel
  obtain ⟨⟨g, problems⟩, hsome, hfound⟩ := Option.map_eq_some_iff.mp hok
  have hbind := eq_ok_of_toOption hsome
  obtain ⟨hnodes, hkinds⟩ := Prod.mk.inj hfound
  obtain ⟨node, rest, hsplit, hnode, -⟩ := List.map_eq_cons_iff.mp hnodes
  obtain ⟨hname, hproperties⟩ := Prod.mk.inj hnode
  obtain ⟨p, hp, hpname⟩ := List.mem_map.mp (hproperties ▸ List.mem_cons_of_mem _ List.mem_cons_self : "X" ∈ _)
  have howns : g.Owns 0 (AliasToken.key ⟨"A", "X", some "Own", none⟩) :=
    ⟨node, by rw [hsplit]; rfl, p, hp, by rw [hname, hpname]; rfl⟩
  obtain ⟨d, hd, hkind⟩ := List.mem_map.mp (hkinds ▸ List.mem_cons_self : DiagnosticKind.conflictingAlias ∈ _)
  obtain ⟨-, hmade⟩ := key_names_source hparse
  obtain ⟨hunique, -, hreports⟩ := hmade {} g (.bound hbind)
  obtain ⟨⟨key, hkey⟩, hother⟩ := hreports d hd hkind
  exact ⟨_, g, problems, hparse, hbind, rfl, howns, fun j hj => hunique j 0 hj howns, d, hd, key, hkey,
    hother key hkey⟩

end EntityModel
