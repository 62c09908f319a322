import EntityModel.Proofs.AliasAgreement
import EntityModel.Proofs.Arrangement
import EntityModel.Proofs.ColumnNames
import EntityModel.Proofs.KeyLookup

/-!
# Columns of a class

In a published model the column of a property goes back to a field: its own, the primary key of the class that an
association leads to, or what an alias copies (`Model.ColumnFrom`). Nothing keeps the columns of a class apart, so
that they are different just when what they are put together from makes different texts
(`columns_compare_of_run`).
-/

namespace EntityModel

/-- What the column of a property of a class is put together from: the declaration of a field; the primary key of the
target of an association, with its role; and the source of an alias, with its affixes. -/
inductive Model.ColumnFrom (m : Model) (files : List LoadedFile) : Class → Property → ColumnParts → Prop
  | field {c : Class} {f : Property.Field} {file : LoadedFile} {written : Declaration.Class}
      {d : Declaration.Field} :
      file ∈ files → file.id = c.file → written ∈ file.declared.classes → written.name.value = c.name →
        .field d ∈ written.properties → d.name.value = f.name →
        ColumnFrom m files c (.field f) { written := d.column, trigram := c.trigram, name := f.name }
  | association {c target owner : Class} {a : Property.Association} {key : Property} {x : ColumnParts} :
      m.class? a.target = some target → m.primaryKey? target = some key → owner ∈ m.classes →
        key ∈ owner.properties → ColumnFrom m files owner key x →
        ColumnFrom m files c (.association a) { x with role := a.role }
  | copy {c owner : Class} {a : Property.Alias} {p : Property} {x : ColumnParts} :
      owner ∈ m.classes → owner.name = a.source.klass → p ∈ owner.properties → p.name = a.source.property →
        p.isAlias = false → ColumnFrom m files owner p x →
        ColumnFrom m files c (.alias a) { x with before := a.before, after := a.after }

namespace Property

theorem field_of_bound {p : Property} {binding : KeyBinding} {f : Field} (h : p.bound binding = .field f) :
    p = .field f := by
  cases p with
  | field p => exact h
  | «alias» p =>
    unfold bound at h
    dsimp only at h
    split at h <;> cases h
  | _ => cases h

theorem MadeBoundBy.field {settings : Settings} {trigram : Option String} {d : Declaration.Property} {f : Field}
    (h : MadeBoundBy settings trigram d (.field f)) :
    ∃ written, d = .field written ∧ written.name.value = f.name
      ∧ f.column = written.column.getD (Naming.fieldColumn trigram f.name) := by
  obtain ⟨made, hmade, heq⟩ := h
  obtain rfl : made = .field f := by
    rcases heq with rfl | ⟨_, _, _, -, heq⟩
    · rfl
    · exact field_of_bound heq.symm
  cases hmade with
  | own hmade =>
    cases d with
    | field written => cases hmade; exact ⟨written, rfl, rfl, rfl⟩
    | _ => cases hmade

end Property

namespace Graph.Clean

variable {settings : Settings} {files ordered : List LoadedFile} {g : Graph} {problems : List Diagnostic}
  (hclean : g.Clean settings problems)
include hclean

/-! ### The source of an alias -/

theorem exists_bound {before : Node} (hbefore : before ∈ (g.expandAliases settings).1.nodes) {p₁ : Spanned Property}
    (hp₁ : p₁ ∈ before.properties) :
    ∃ node ∈ (g.resolve settings).nodes, ∃ p ∈ node.properties, node.name = before.name
      ∧ p.value.name = p₁.value.name ∧ ∃ g' file, BoundFrom settings g' file p₁.value p.value := by
  obtain ⟨owner, howner⟩ := List.mem_iff_getElem?.mp hbefore
  obtain ⟨index, hindex⟩ := List.mem_iff_getElem?.mp hp₁
  have houtline : (g.expandAliases settings).1.outline = (g.resolve settings).outline :=
    (outline_bindForeignKeys _).symm
  obtain ⟨node, hnode, hsame⟩ := exists_node_of_outline_eq houtline howner
  have hlt : index < node.properties.length :=
    length_properties_bindForeignKeys howner hnode ▸ (List.getElem?_eq_some_iff.mp hindex).1
  obtain ⟨p, hp⟩ : ∃ p, node.properties[index]? = some p := ⟨_, List.getElem?_eq_getElem hlt⟩
  have hat : (g.resolve settings).propertyAt? ⟨owner, index⟩ = some p := by
    rw [propertyAt?, hnode, Option.bind_some, hp]
  obtain ⟨g', node', p', hat', -, -, rfl, hfound⟩ :=
    (bindForeignKeys_spec settings (g.expandAliases settings).1).propertyAt? hat
  rw [propertyAt?, howner, Option.bind_some, hindex] at hat'
  obtain rfl := Option.some.inj hat'
  refine ⟨node, List.mem_of_getElem? hnode, _, List.mem_of_getElem? hp, ?_, name_boundProperty node' p₁, g',
    node'.file, boundFrom_of_clean (Diagnostic.hasErrors_of_subset hfound hclean.foreignKeys)⟩
  exact (Node.name_congr hsame).symm

theorem exists_source (hbind : Graph.bind ordered = .ok (g, problems)) {node : Node}
    (hnode : node ∈ (g.resolve settings).nodes) {entry : Spanned Property} (hentry : entry ∈ node.properties)
    {a : Property.Alias} (ha : entry.value = .alias a) (hcolumn : a.column.isSome) :
    ∃ target ∈ (g.resolve settings).nodes, ∃ source ∈ target.properties,
      a.source = ⟨target.name, source.value.name⟩
        ∧ ((∃ f, source.value = .field f) ∨ ∃ s, source.value = .association s) := by
  have hcopied : AliasesCopied (g.expandAliases settings).1 :=
    aliasesCopied_expandAliases fun _ hnode _ hp => isAlias_of_bind hbind hnode hp
  obtain ⟨before, hbefore, entry₁, hentry₁, -, -, g₁, -, hbound⟩ :=
    (bindForeignKeys_spec settings (g.expandAliases settings).1).property hclean.foreignKeys hnode hentry
  rw [ha] at hbound
  obtain ⟨copy, hcopy, hsame⟩ := hbound.of_alias
  obtain ⟨declared, token, owner, howner, original, horiginal, rfl⟩ :=
    hcopied before hbefore entry₁ hentry₁ copy hcopy
  obtain ⟨target, htarget, source, hsource, hname, hproperty, g₂, _, hbound₂⟩ :=
    hclean.exists_bound howner horiginal
  refine ⟨target, htarget, source, hsource, ?_, ?_⟩
  · rw [← hsame, hname, hproperty]
    rfl
  · rw [hcopy] at hbound
    rcases horig : original.value with f | s | c | b
    · rw [horig] at hbound₂
      exact Or.inl ⟨f, hbound₂.1 rfl⟩
    · rw [horig] at hbound₂
      obtain ⟨_, _, -, -, -, _, _, -, -, hsource⟩ := hbound₂.2 s.target rfl
      exact Or.inr ⟨_, hsource⟩
    -- a copy of a composition or an alias leads nowhere, and so gets no column
    · rw [horig] at hbound
      obtain rfl := Property.alias.inj (hbound.1 rfl)
      cases hcolumn
    · rw [horig] at hbound
      obtain rfl := Property.alias.inj (hbound.1 rfl)
      cases hcolumn

/-! ### Columns of the graph that is published -/

variable (hsub : ordered ⊆ files) (hbind : Graph.bind ordered = .ok (g, problems)) (version : Nat)
  (warnings : List Diagnostic)
include hsub hbind

theorem columnFrom_field {node : Node} (hnode : node ∈ (g.resolve settings).nodes) {f : Property.Field}
    (hf : .field f ∈ node.toClass.properties) :
    ∃ written, f.column = written.getD (Naming.fieldColumn node.toClass.trigram f.name)
      ∧ ((g.resolve settings).toModel version settings warnings).ColumnFrom files node.toClass (.field f)
        { written, trigram := node.toClass.trigram, name := f.name } := by
  obtain ⟨p, hp, hvalue⟩ := List.mem_map.mp hf
  obtain ⟨d, hd, -, hmade⟩ := (arranged_resolve hbind).exists_madeAt hnode hp
  rw [hvalue] at hmade
  obtain ⟨written, rfl, hname, hcolumn⟩ := hmade.field
  obtain ⟨file, hfile, hid, hdeclared⟩ := (hclean.resolved hsub hbind).bound.declared node hnode
  exact ⟨written.column, hcolumn, .field hfile hid hdeclared rfl hd hname⟩

theorem columnFrom_association {node : Node} (hnode : node ∈ (g.resolve settings).nodes) {a : Property.Association}
    (ha : .association a ∈ node.toClass.properties) {column : String} (hcolumn : a.column = some column) :
    ∃ x, ((g.resolve settings).toModel version settings warnings).ColumnFrom files node.toClass (.association a) x
      ∧ x.before = none ∧ x.after = none ∧ column = x.text := by
  have hclosed := (hclean.resolved hsub hbind).closed version warnings
  obtain ⟨-, target, key, _, keyColumn, _, htarget, hkey, -, hkeyColumn, -, hbound, -⟩ :=
    hclosed.property node.toClass (List.mem_map_of_mem hnode) _ ha
  obtain ⟨owner, howner, -, hown⟩ := Model.exists_above_of_primaryKeyWithin? (Model.mem_of_class? htarget) hkey
  have hmem := List.mem_of_find?_eq_some hown
  have hprimary := List.find?_some hown
  obtain ⟨node', hnode', rfl⟩ := List.mem_map.mp howner
  cases key with
  | field k =>
    obtain ⟨written, hk, hfrom⟩ := hclean.columnFrom_field hsub hbind version warnings hnode' hmem
    refine ⟨_, .association htarget hkey howner hmem hfrom, rfl, rfl, ?_⟩
    rw [hcolumn] at hbound
    obtain rfl := Option.some.inj hkeyColumn
    rw [Option.some.inj hbound, ColumnParts.text, Naming.affixColumn_none, ColumnParts.base, ← hk]
    rfl
  | _ => cases hprimary

theorem columnFrom_alias {node : Node} (hnode : node ∈ (g.resolve settings).nodes) {a : Property.Alias}
    (ha : .alias a ∈ node.toClass.properties) {column : String} (hcolumn : a.column = some column) :
    ∃ x, ((g.resolve settings).toModel version settings warnings).ColumnFrom files node.toClass (.alias a) x
      ∧ column = x.text := by
  obtain ⟨entry, hentry, hvalue⟩ := List.mem_map.mp ha
  obtain ⟨target, htarget, source, hsource, hpath, hkind⟩ :=
    hclean.exists_source hbind hnode hentry hvalue (by rw [hcolumn]; rfl)
  obtain ⟨own, hown, hcopied⟩ := (hclean.agrees hbind hnode htarget hentry hvalue hsource hpath hkind).column
  have hmem : source.value ∈ target.toClass.properties := List.mem_map_of_mem hsource
  have hklass : target.toClass.name = a.source.klass := (congrArg PropertyPath.klass hpath).symm
  have hproperty : source.value.name = a.source.property := (congrArg PropertyPath.property hpath).symm
  obtain ⟨x, halias, hfrom, hbefore, hafter, htext⟩ : ∃ x, source.value.isAlias = false
      ∧ ((g.resolve settings).toModel version settings warnings).ColumnFrom files target.toClass source.value x
      ∧ x.before = none ∧ x.after = none ∧ own = x.text := by
    rcases hkind with ⟨f, hf⟩ | ⟨s, hs⟩
    · rw [hf] at hmem hown ⊢
      obtain ⟨written, hf', hfrom⟩ := hclean.columnFrom_field hsub hbind version warnings htarget hmem
      refine ⟨_, rfl, hfrom, rfl, rfl, ?_⟩
      rw [ColumnParts.text, Naming.affixColumn_none, ColumnParts.base, ← hf']
      exact (Option.some.inj hown).symm
    · rw [hs] at hmem hown ⊢
      obtain ⟨x, hx⟩ := hclean.columnFrom_association hsub hbind version warnings htarget hmem hown
      exact ⟨x, rfl, hx⟩
  refine ⟨_, .copy (List.mem_map_of_mem htarget) hklass hmem hproperty halias hfrom, ?_⟩
  rw [hcolumn] at hcopied
  rw [Option.some.inj hcopied, htext, ColumnParts.text, hbefore, hafter, Naming.affixColumn_none]
  rfl

theorem exists_columnFrom {node : Node} (hnode : node ∈ (g.resolve settings).nodes) {p : Property}
    (hp : p ∈ node.toClass.properties) {column : String} (hcolumn : p.column = some column) :
    ∃ x, ((g.resolve settings).toModel version settings warnings).ColumnFrom files node.toClass p x
      ∧ column = x.text := by
  cases p with
  | field f =>
    obtain ⟨written, hf, hfrom⟩ := hclean.columnFrom_field hsub hbind version warnings hnode hp
    refine ⟨_, hfrom, ?_⟩
    rw [ColumnParts.text, Naming.affixColumn_none, ColumnParts.base, ← hf]
    exact (Option.some.inj hcolumn).symm
  | association a =>
    obtain ⟨x, hfrom, -, -, htext⟩ := hclean.columnFrom_association hsub hbind version warnings hnode hp hcolumn
    exact ⟨x, hfrom, htext⟩
  | composition c => cases hcolumn
  | «alias» a => exact hclean.columnFrom_alias hsub hbind version warnings hnode hp hcolumn

end Graph.Clean

/-! ### Columns of published models -/

/-- How the columns of two properties of a class compare. -/
structure Model.ComparesColumns (m : Model) (files : List LoadedFile) (c : Class) (p q : Property) (a b : String) :
    Prop where
  made : ∃ x y, m.ColumnFrom files c p x ∧ m.ColumnFrom files c q y ∧ a = x.text ∧ b = y.text
    ∧ (x.letters ≠ y.letters → a ≠ b)
    ∧ ∀ i : Nat, (∀ j, j ≠ i → x.pieces[j]? = y.pieces[j]?) → (a ≠ b ↔ x.pieces ≠ y.pieces)
  fields : ∀ f f', p = .field f → q = .field f' → f.column = Naming.fieldColumn c.trigram f.name →
    f'.column = Naming.fieldColumn c.trigram f'.name →
    (a ≠ b ↔ Naming.constantCase f.name ≠ Naming.constantCase f'.name)
  associations : ∀ s s', p = .association s → q = .association s' → s.target = s'.target →
    (a ≠ b ↔ s.role.map Naming.roleSuffix ≠ s'.role.map Naming.roleSuffix)

namespace Resolution

/-- **How the columns of a class compare.** In a published model each column is what its parts make. So columns with
different letters are different, columns whose pieces are the same in all places but one are different if the pieces
there are, two fields without a column of their own if the constant cases of their names are, and two associations with
one target if their role suffixes are. -/
theorem columns_compare_of_run {sources : Sources} {settings : Settings} {changed : Option (List FileId)}
    {version : Nat} {cache : ParseCache} {m : Model} {diagnostics : List Diagnostic}
    (h : (run sources settings changed version cache).2 = .ok ⟨some m, diagnostics⟩) :
    ∃ files, (cache.readAll sources settings changed).2 = .ok files
      ∧ ∀ c ∈ m.classes, ∀ p ∈ c.properties, ∀ q ∈ c.properties, ∀ a b, p.column = some a → q.column = some b →
        m.ComparesColumns files c p q a b := by
  obtain ⟨files, ordered, g, problems, hread, horder, hbind, hclean, warnings, rfl⟩ := run_eq_ok_some h
  have hsub := LoadOrder.order_subset horder
  refine ⟨files, hread, fun c hc p hp q hq a b ha hb => ?_⟩
  obtain ⟨node, hnode, rfl⟩ := List.mem_map.mp hc
  refine ⟨?_, fun f f' hf hf' hcolumn hcolumn' => ?_, fun s s' hs hs' htarget => ?_⟩
  · obtain ⟨x, hx, rfl⟩ := hclean.exists_columnFrom hsub hbind version warnings hnode hp ha
    obtain ⟨y, hy, rfl⟩ := hclean.exists_columnFrom hsub hbind version warnings hnode hq hb
    refine ⟨x, y, hx, hy, rfl, rfl, fun hletters heq => hletters ?_, fun i hothers => ?_⟩
    · rw [← x.strip_text, heq, y.strip_text]
    · exact not_congr (ColumnParts.text_eq_iff_of_one hothers)
  · subst hf hf'
    rw [← Option.some.inj ha, ← Option.some.inj hb, hcolumn, hcolumn']
    exact not_congr Naming.fieldColumn_inj
  · subst hs hs'
    have hclosed := (hclean.resolved hsub hbind).closed version warnings
    obtain ⟨-, target, key, _, column, _, hclass, hkey, -, hcolumn, -, hbound, -⟩ := hclosed.property _ hc _ hp
    obtain ⟨-, target', key', _, column', _, hclass', hkey', -, hcolumn', -, hbound', -⟩ := hclosed.property _ hc _ hq
    rw [← htarget, hclass] at hclass'
    obtain rfl := Option.some.inj hclass'
    obtain rfl := Option.some.inj (hkey.symm.trans hkey')
    obtain rfl := Option.some.inj (hcolumn.symm.trans hcolumn')
    rw [Option.some.inj (ha.symm.trans hbound), Option.some.inj (hb.symm.trans hbound')]
    exact not_congr ForeignKey.column_inj

/-- A class with two fields whose names differ in case only. -/
def foldedNames : Sources := .ofFiles <| .ofList [(⟨"App", "Data", "Item"⟩,
  "domain DO_ID \x7b map sql = \"int\"; \x7d "
    ++ "class Item \x7b field Id: DO_ID primary; field Code: DO_ID; field code: DO_ID; \x7d")]

def foldedField (name : String) : Property := .field { name, domain := "DO_ID", column := "CODE" }

theorem run_foldedNames :
    ∃ m diagnostics, (run foldedNames { appName := some "App" } none 1 {}).2 = .ok ⟨some m, diagnostics⟩
      ∧ ∃ c ∈ m.classes, foldedField "Code" ∈ c.properties ∧ foldedField "code" ∈ c.properties := by
  obtain ⟨m, diagnostics, hrun, hfound⟩ := exists_ok_of_any_model
    (show ((run foldedNames { appName := some "App" } none 1 {}).2.toOption.bind Resolution.model).any (fun m => decide
      (∃ c ∈ m.classes, foldedField "Code" ∈ c.properties ∧ foldedField "code" ∈ c.properties)) = true by
      decide +kernel)
  exact ⟨m, diagnostics, hrun, of_decide_eq_true hfound⟩

theorem columns_compare_of_run_foldedNames :
    ∃ m diagnostics, (run foldedNames { appName := some "App" } none 1 {}).2 = .ok ⟨some m, diagnostics⟩
      ∧ ∃ files, ∃ c ∈ m.classes, foldedField "Code" ∈ c.properties ∧ foldedField "code" ∈ c.properties
        ∧ m.ComparesColumns files c (foldedField "Code") (foldedField "code") "CODE" "CODE" := by
  obtain ⟨m, diagnostics, hrun, c, hc, hp, hq⟩ := run_foldedNames
  obtain ⟨files, -, hcompares⟩ := columns_compare_of_run hrun
  exact ⟨m, diagnostics, hrun, files, c, hc, hp, hq, hcompares c hc _ hp _ hq "CODE" "CODE" rfl rfl⟩

/-- The two fields have one column. -/
theorem columns_of_two_fields :
    ∃ sources settings changed version cache m diagnostics,
      (run sources settings changed version cache).2 = .ok ⟨some m, diagnostics⟩
      ∧ ∃ c ∈ m.classes, ∃ p ∈ c.properties, ∃ q ∈ c.properties, p ≠ q
        ∧ ∃ column, p.column = some column ∧ q.column = some column := by
  obtain ⟨m, diagnostics, hrun, c, hc, hp, hq⟩ := run_foldedNames
  exact ⟨foldedNames, _, none, 1, {}, m, diagnostics, hrun, c, hc, _, hp, _, hq, by decide, "CODE", rfl, rfl⟩

end Resolution

end EntityModel
