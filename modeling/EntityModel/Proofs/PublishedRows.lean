import EntityModel.Proofs.AliasAgreement
import EntityModel.Proofs.RowKeys

/-!
# Rows of published models

Of the rows of a published model each is valid, and its values are all of properties of its class: what a check passes
over, such as a value that a row need not give or a key that it does not set, is just what valid rows may leave out
(`rowsValid_of_run`).
-/

namespace EntityModel

open Diagnostic (hasErrors)

theorem Property.exists_field_of_isUnique {p : Property} (h : p.isUnique = true) :
    ∃ field, p = .field field ∧ (field.unique = true ∨ field.primaryKey = true) := by
  cases p with
  | field field => exact ⟨field, rfl, (Bool.or_eq_true _ _).mp h⟩
  | _ => cases h

theorem Class.mem_of_property? {c : Class} {name : String} {p : Property} (h : c.property? name = some p) :
    p ∈ c.properties ∧ p.name = name :=
  ⟨List.mem_of_find?_eq_some h, by simpa using List.find?_some h⟩

namespace Graph

variable {settings : Settings} {g : Graph} {node : Node} {key : Option Property}

theorem hasRows_of_clean (hclean : hasErrors (g.rowDiagnostics settings) = false) (hnode : node ∈ g.nodes)
    (hrows : node.declared.rows ≠ []) : node.toClass.hasRows = true := by
  obtain ⟨position, hposition⟩ := List.mem_iff_getElem?.mp hnode
  have hplace : (node, position) ∈ g.nodes.zipIdx := List.mem_zipIdx_iff_getElem?.mpr hposition
  have hfound := Diagnostic.hasErrors_of_flatMap hclean hplace
  unfold classRowDiagnostics at hfound
  dsimp only at hfound
  split at hfound
  · next hnil => exact absurd hnil hrows
  · split at hfound
    · assumption
    · cases hfound

theorem rowsValid_of_fits (hfits : ∀ row ∈ node.declared.rows, Fits settings node row)
    (hapart : node.declared.rows.Pairwise (Apart key)) : node.toClass.RowsValid settings key where
  given row hrow p hp hneeded := by
    obtain ⟨declared, hdeclared, rfl⟩ := List.mem_map.mp hrow
    obtain ⟨entry, hentry, rfl⟩ := List.mem_map.mp hp
    exact (hfits declared hdeclared).given entry hentry (mayOmit_eq_false_iff.mpr hneeded)
  known row hrow value hvalue := by
    obtain ⟨declared, hdeclared, rfl⟩ := List.mem_map.mp hrow
    obtain ⟨entry, hentry, rfl⟩ := List.mem_map.mp hvalue
    exact Or.inl ((hfits declared hdeclared).known entry hentry)
  names := by
    rw [Node.toClass, List.map_map]
    exact List.pairwise_map.mpr (hapart.imp Apart.name)
  keys := by
    have htext : ∀ row, ((key.bind fun k => (Row.ofDeclaration row).get? k.name).map Literal.text)
        = keyText? key row := by
      intro row
      rcases key with _ | k <;> rfl
    rw [Node.toClass, List.filterMap_map]
    refine List.pairwise_filterMap.mpr (hapart.imp fun {a b} hab text htext₁ text' htext₂ hsame => ?_)
    rw [Function.comp_apply, htext] at htext₁ htext₂
    exact hab.key text' htext₂ (hsame ▸ htext₁)

end Graph

namespace Resolution

/-- **Published rows are valid.** In a published model, the declared key of a class is one of its fields, and unique or
a primary key. A class with rows is an enumeration or a list, its rows give all values that they need to and none that
is of no property of the class, and no two of them have one name or give the key values that read alike. -/
theorem rowsValid_of_run {sources : Sources} {settings : Settings} {changed : Option (List FileId)} {version : Nat}
    {cache : ParseCache} {m : Model} {diagnostics : List Diagnostic}
    (h : (run sources settings changed version cache).2 = .ok ⟨some m, diagnostics⟩) {c : Class}
    (hc : c ∈ m.classes) :
    (∀ name, c.uniqueKey = some name →
        ∃ field, .field field ∈ c.properties ∧ field.name = name ∧ (field.unique = true ∨ field.primaryKey = true))
      ∧ (c.rows ≠ [] → (c.stereotype = some .enumeration ∨ c.stereotype = some .reference)
        ∧ c.RowsValid m.settings (m.rowKey? c)
        ∧ ∀ row ∈ c.rows, ∀ value ∈ row.values, ∃ p ∈ c.properties, p.name = value.1) := by
  obtain ⟨files, ordered, g, problems, -, -, hbind, hgraph⟩ := run_eq_ok h
  obtain ⟨hclean, ws, rfl⟩ := clean_of_ofGraph hgraph
  obtain ⟨_, hunique, -⟩ := bind_eq_ok_iff.mp hgraph
  obtain ⟨node, hmem, rfl⟩ := List.mem_map.mp hc
  obtain ⟨a, hnode⟩ := List.mem_iff_getElem?.mp hmem
  have hbound := (hclean.resolved (List.Subset.refl _) hbind).bound
  have hchecks := hclean.checks
  simp only [Graph.checkDiagnostics, Diagnostic.hasErrors_append, Bool.or_eq_false_iff] at hchecks
  refine ⟨fun name hname => ?_, fun hrows => ?_⟩
  · obtain ⟨own, hown, hkey⟩ := Graph.exists_unique_of_checkUniqueKeys hunique hmem hname
    obtain ⟨field, rfl, hfield⟩ := Property.exists_field_of_isUnique hkey
    obtain ⟨hproperty, hnamed⟩ := Class.mem_of_property? hown
    exact ⟨field, hproperty, hnamed, hfield⟩
  · have hhas := Graph.hasRows_of_clean hchecks.2 hmem (mt List.map_eq_nil_iff.mpr hrows)
    obtain ⟨hfits, hapart⟩ := Graph.rows_of_rowDiagnostics hchecks.2 hnode hhas
    rw [Graph.rowKey?_toModel version ws hbound hnode]
    refine ⟨Class.hasRows_iff.mp hhas, Graph.rowsValid_of_fits hfits hapart, fun row hrow value hvalue => ?_⟩
    obtain ⟨declared, hdeclared, rfl⟩ := List.mem_map.mp hrow
    obtain ⟨entry, hentry, rfl⟩ := List.mem_map.mp hvalue
    obtain ⟨p, hp⟩ := Option.isSome_iff_exists.mp ((hfits declared hdeclared).known entry hentry)
    exact ⟨p, Class.mem_of_property? hp⟩

/-- A list with a generated identifier and a declared key. -/
def ranked : Sources := .ofFiles <| .ofList [(⟨"App", "Data", "Rank"⟩,
  "domain DO_ID \x7b map sql = \"int\"; \x7d class Rank reference \x7b key Code; field Id: DO_ID primary; "
    ++ "field Code: DO_ID unique; values \x7b A \x7b Code = 1 \x7d B \x7b Code = 2 \x7d \x7d \x7d")]

theorem rowsValid_of_run_ranked :
    ∃ m diagnostics, (run ranked { appName := some "App" } none 1 {}).2 = .ok ⟨some m, diagnostics⟩
      ∧ ∃ c ∈ m.classes, c.rows.length = 2 ∧ c.uniqueKey = some "Code" ∧ c.RowsValid m.settings (m.rowKey? c) := by
  obtain ⟨m, diagnostics, hrun, hfound⟩ := exists_ok_of_any_model
    (show ((run ranked { appName := some "App" } none 1 {}).2.toOption.bind Resolution.model).any (fun m => decide
      (∃ c ∈ m.classes, c.rows.length = 2 ∧ c.uniqueKey = some "Code")) = true by decide +kernel)
  obtain ⟨c, hc, hlength, hkey⟩ := of_decide_eq_true hfound
  have hrows : c.rows ≠ [] := List.ne_nil_of_length_pos (by omega)
  exact ⟨m, diagnostics, hrun, c, hc, hlength, hkey, ((rowsValid_of_run hrun hc).2 hrows).2.1⟩

end Resolution

end EntityModel
