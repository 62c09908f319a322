import EntityModel.Proofs.Problems
import EntityModel.Proofs.Published

/-!
# Rows that the check accepts

A class has valid rows if they give what every row has to give, set nothing but properties of the class and the key
that tells them apart, and differ by their names and by the keys that they set (`Class.RowsValid`). Of valid rows the
check refuses one thing only: a value for a key that the class inherits. If no row gives one, it finds nothing
(`validRows_accepted_iff`).
-/

namespace EntityModel

/-! ### Valid rows -/

/-- Whether every row has to give a property a value: it has a column, and neither a default nor a generated value. -/
def Property.NeedsValue (settings : Settings) (p : Property) : Prop :=
  p.isPersisted = true ∧ p.default = none
    ∧ ¬ (p.isPrimaryKey = true ∧ p.domain = some settings.identifierDomain)

instance (settings : Settings) (p : Property) : Decidable (p.NeedsValue settings) :=
  inferInstanceAs (Decidable (_ ∧ _ ∧ _))

/-- Rows as they should be in a class whose rows `key` tells apart. -/
structure Class.RowsValid (settings : Settings) (c : Class) (key : Option Property) : Prop where
  given : ∀ row ∈ c.rows, ∀ p ∈ c.properties, p.NeedsValue settings → (row.get? p.name).isSome = true
  known : ∀ row ∈ c.rows, ∀ value ∈ row.values,
    (c.property? value.1).isSome = true ∨ key.map Property.name = some value.1
  names : (c.rows.map Row.name).Nodup
  keys : (c.rows.filterMap fun row => (key.bind fun k => row.get? k.name).map Literal.text).Nodup

instance (settings : Settings) (c : Class) (key : Option Property) : Decidable (c.RowsValid settings key) :=
  decidable_of_iff (_ ∧ _ ∧ _ ∧ _)
    ⟨fun ⟨given, known, names, keys⟩ => ⟨given, known, names, keys⟩,
      fun ⟨given, known, names, keys⟩ => ⟨given, known, names, keys⟩⟩

namespace Graph

variable {settings : Settings} {g : Graph} {node : Node} {key : Option Property}

theorem mayOmit_eq_false_iff {p : Property} : mayOmit settings p = false ↔ p.NeedsValue settings := by
  simp only [mayOmit, Property.NeedsValue, Bool.or_eq_false_iff, Bool.and_eq_false_iff, Bool.not_eq_false',
    Option.isSome_eq_false_iff, Option.isNone_iff_eq_none, beq_eq_false_iff_ne, not_and_or, Bool.not_eq_true]
  tauto

/-! ### One row -/

theorem repeatedRowDiagnostics_eq_nil {earlier : List Declaration.Row} {row : Declaration.Row}
    (h : ∀ before ∈ earlier, before.name.value ≠ row.name.value) :
    g.repeatedRowDiagnostics node earlier row = [] := by
  unfold repeatedRowDiagnostics
  rw [if_neg]
  rintro hany
  obtain ⟨before, hbefore, hsame⟩ := List.any_eq_true.mp hany
  exact h before hbefore (beq_iff_eq.mp hsame)

theorem missingValueDiagnostics_eq_nil {row : Declaration.Row}
    (h : ∀ p ∈ node.toClass.properties, p.NeedsValue settings →
      ((Row.ofDeclaration row).get? p.name).isSome = true) :
    missingValueDiagnostics settings g node row = [] := by
  unfold missingValueDiagnostics
  rw [List.map_eq_nil_iff, List.filter_eq_nil_iff]
  intro p hp hneeded
  rw [Bool.and_eq_true, Bool.not_eq_true', mayOmit_eq_false_iff] at hneeded
  have hgiven := h p.value (List.mem_map_of_mem hp) hneeded.1
  rw [Option.isNone_iff_eq_none.mp hneeded.2] at hgiven
  cases hgiven

theorem repeatedKeyDiagnostics_eq_nil {earlier : List Declaration.Row} {row : Declaration.Row}
    (h : ∀ text, keyText? key row = some text → ∀ before ∈ earlier, keyText? key before ≠ some text) :
    g.repeatedKeyDiagnostics node key earlier row = [] := by
  unfold repeatedKeyDiagnostics
  split
  · rfl
  · next text htext =>
    rw [if_neg]
    rintro hany
    obtain ⟨before, hbefore, hsame⟩ := List.any_eq_true.mp hany
    exact h text htext before hbefore (beq_iff_eq.mp hsame)

theorem mem_unknownFieldDiagnostics {row : Declaration.Row} {d : Diagnostic}
    (hd : d ∈ g.unknownFieldDiagnostics node row) :
    ∃ value ∈ row.values, node.property? value.1.value = none
      ∧ d.kind = .unknownEnumerationField ∧ d.field = some value.1.value := by
  obtain ⟨value, hvalue, rfl⟩ := List.mem_map.mp hd
  obtain ⟨hmem, hnone⟩ := List.mem_filter.mp hvalue
  exact ⟨value, hmem, Option.isNone_iff_eq_none.mp hnone, rfl, rfl⟩

theorem unknownFieldDiagnostics_eq_nil_iff {row : Declaration.Row} :
    g.unknownFieldDiagnostics node row = []
      ↔ ∀ value ∈ row.values, (node.property? value.1.value).isSome = true := by
  unfold unknownFieldDiagnostics
  rw [List.map_eq_nil_iff, List.filter_eq_nil_iff]
  refine forall₂_congr fun value _ => ?_
  rw [Bool.not_eq_true, Option.isNone_eq_false_iff]

/-! ### All rows of a class -/

/-- Where rows give what they have to and repeat neither a name nor a key, the check only looks for values that are
unknown. The rows before are the ones that the check has seen, the latest first. -/
theorem rowDiagnosticsAfter_eq_flatMap {earlier rows : List Declaration.Row}
    (hgiven : ∀ row ∈ rows, ∀ p ∈ node.toClass.properties, p.NeedsValue settings →
      ((Row.ofDeclaration row).get? p.name).isSome = true)
    (hnames : ((earlier.reverse ++ rows).map (·.name.value)).Nodup)
    (hkeys : ((earlier.reverse ++ rows).filterMap (keyText? key)).Nodup) :
    rowDiagnosticsAfter settings g node key earlier rows = rows.flatMap (g.unknownFieldDiagnostics node) := by
  induction rows generalizing earlier with
  | nil => rfl
  | cons row rows ih =>
    have hlist : (row :: earlier).reverse ++ rows = earlier.reverse ++ row :: rows := by
      rw [List.reverse_cons, List.append_assoc, List.singleton_append]
    have hrest : rowDiagnosticsAfter settings g node key (row :: earlier) rows
        = rows.flatMap (g.unknownFieldDiagnostics node) :=
      ih (fun other hother => hgiven other (List.mem_cons_of_mem _ hother)) (hlist ▸ hnames) (hlist ▸ hkeys)
    have hname : ∀ before ∈ earlier, before.name.value ≠ row.name.value := by
      intro before hbefore
      rw [List.map_append, List.nodup_append] at hnames
      exact hnames.2.2 _ (List.mem_map_of_mem (List.mem_reverse.mpr hbefore)) _ List.mem_cons_self
    have hkey : ∀ text, keyText? key row = some text → ∀ before ∈ earlier, keyText? key before ≠ some text := by
      intro text htext before hbefore hsame
      rw [List.filterMap_append, List.nodup_append] at hkeys
      exact hkeys.2.2 text (List.mem_filterMap.mpr ⟨before, List.mem_reverse.mpr hbefore, hsame⟩) text
        (List.mem_filterMap.mpr ⟨row, List.mem_cons_self, htext⟩) rfl
    rw [rowDiagnosticsAfter, repeatedRowDiagnostics_eq_nil hname,
      missingValueDiagnostics_eq_nil (hgiven row List.mem_cons_self), repeatedKeyDiagnostics_eq_nil hkey, hrest,
      List.nil_append, List.nil_append, List.append_nil, List.flatMap_cons]

theorem classRowDiagnostics_of_hasRows {position : Nat} (hrows : node.toClass.hasRows = true) :
    classRowDiagnostics settings g (node, position)
      = rowDiagnosticsAfter settings g node (g.rowKey? position) [] node.declared.rows := by
  unfold classRowDiagnostics
  dsimp only
  split
  · next hnone =>
    rw [hnone]
    rfl
  · rw [if_pos hrows]

theorem classRowDiagnostics_of_valid {position : Nat} (hrows : node.toClass.hasRows = true)
    (hvalid : node.toClass.RowsValid settings (g.rowKey? position)) :
    classRowDiagnostics settings g (node, position)
      = node.declared.rows.flatMap (g.unknownFieldDiagnostics node) := by
  have hrowsEq : node.toClass.rows = node.declared.rows.map Row.ofDeclaration := rfl
  have hgiven : ∀ row ∈ node.declared.rows, ∀ p ∈ node.toClass.properties, p.NeedsValue settings →
      ((Row.ofDeclaration row).get? p.name).isSome = true :=
    fun row hrow => hvalid.given _ (List.mem_map_of_mem hrow)
  have hnames : (node.declared.rows.map (·.name.value)).Nodup := by
    have hdistinct := hvalid.names
    rwa [hrowsEq, List.map_map] at hdistinct
  have hkeys : (node.declared.rows.filterMap (keyText? (g.rowKey? position))).Nodup := by
    have hdistinct := hvalid.keys
    rw [hrowsEq, List.filterMap_map] at hdistinct
    refine (congrArg List.Nodup (List.filterMap_congr fun row _ => ?_)).mp hdistinct
    rcases g.rowKey? position with _ | k <;> rfl
  rw [classRowDiagnostics_of_hasRows hrows]
  exact rowDiagnosticsAfter_eq_flatMap hgiven hnames hkeys

/-! ### The check of all classes -/

theorem mem_rowDiagnostics_iff (hnames : (g.nodes.map Node.name).Nodup) {position : Nat}
    (hnode : g.nodes[position]? = some node) {d : Diagnostic} :
    d ∈ g.rowDiagnostics settings ∧ d.klass = some node.name ↔ d ∈ classRowDiagnostics settings g (node, position) := by
  constructor
  · rintro ⟨hd, hklass⟩
    obtain ⟨⟨other, place⟩, hother, hd⟩ := List.mem_flatMap.mp hd
    have hplace := List.mem_zipIdx_iff_getElem?.mp hother
    have habout := (refusals_classRowDiagnostics settings g (other, place) d hd).1
    have hlt : place < (g.nodes.map Node.name).length := by
      rw [List.length_map]
      exact (List.getElem?_eq_some_iff.mp hplace).1
    obtain rfl : place = position := by
      refine (List.getElem?_inj hlt hnames).mp ?_
      rw [List.getElem?_map, List.getElem?_map, hplace, hnode, Option.map_some, Option.map_some]
      exact habout.klass.symm.trans hklass
    obtain rfl := Option.some.inj (hplace.symm.trans hnode)
    exact hd
  · intro hd
    exact ⟨List.mem_flatMap.mpr ⟨(node, position), List.mem_zipIdx_iff_getElem?.mpr hnode, hd⟩,
      (refusals_classRowDiagnostics settings g (node, position) d hd).1.klass⟩

/-- **Of valid rows the check refuses only values for an inherited key.** In a class with rows that are valid, every
problem is a value for the key of the rows, which is no property of the class itself. So the check finds nothing if
and only if the key is a property of the class or no row gives it a value. -/
theorem validRows_accepted_iff {files : List LoadedFile} {problems : List Diagnostic}
    (hbind : Graph.bind files = .ok (g, problems)) {resolving : Settings} {position : Nat}
    (hnode : (g.resolve resolving).nodes[position]? = some node) (hrows : node.toClass.hasRows = true)
    (hvalid : node.toClass.RowsValid settings ((g.resolve resolving).rowKey? position)) :
    (∀ d ∈ (g.resolve resolving).rowDiagnostics settings, d.klass = some node.name →
        d.kind = .unknownEnumerationField ∧ ∃ k, (g.resolve resolving).rowKey? position = some k
          ∧ d.field = some k.name ∧ node.property? k.name = none)
      ∧ ((∀ d ∈ (g.resolve resolving).rowDiagnostics settings, d.klass ≠ some node.name)
        ↔ ∀ k, (g.resolve resolving).rowKey? position = some k →
          (node.property? k.name).isSome = true ∨ ∀ row ∈ node.toClass.rows, row.get? k.name = none) := by
  have hnames := ((bound_of_bind hbind).congr (outline_resolve resolving g).symm).names
  have hfound : ∀ d, d ∈ (g.resolve resolving).rowDiagnostics settings ∧ d.klass = some node.name
      ↔ ∃ row ∈ node.declared.rows, d ∈ (g.resolve resolving).unknownFieldDiagnostics node row := by
    intro d
    rw [mem_rowDiagnostics_iff hnames hnode, classRowDiagnostics_of_valid hrows hvalid, List.mem_flatMap]
  have hkey : ∀ row ∈ node.declared.rows, ∀ value ∈ row.values, node.property? value.1.value = none →
      ∃ k, (g.resolve resolving).rowKey? position = some k ∧ k.name = value.1.value := by
    intro row hrow value hvalue hnone
    rcases hvalid.known _ (List.mem_map_of_mem hrow) _ (List.mem_map_of_mem hvalue) with hown | hk
    · exact absurd hown (by rw [show node.toClass.property? value.1.value = none from hnone]; exact Bool.false_ne_true)
    · exact Option.map_eq_some_iff.mp hk
  refine ⟨fun d hd hklass => ?_, fun hclean k hk => ?_, fun hown d hd hklass => ?_⟩
  · obtain ⟨row, hrow, hd⟩ := (hfound d).mp ⟨hd, hklass⟩
    obtain ⟨value, hvalue, hnone, hkind, hfield⟩ := mem_unknownFieldDiagnostics hd
    obtain ⟨k, hk, hname⟩ := hkey row hrow value hvalue hnone
    exact ⟨hkind, k, hk, hname ▸ hfield, hname ▸ hnone⟩
  · refine or_iff_not_imp_left.mpr fun hinherited row hrow => ?_
    obtain ⟨declared, hdeclared, rfl⟩ := List.mem_map.mp hrow
    have hnil : (g.resolve resolving).unknownFieldDiagnostics node declared = [] :=
      List.eq_nil_iff_forall_not_mem.mpr fun d hd =>
        have hat := (hfound d).mpr ⟨declared, hdeclared, hd⟩
        hclean d hat.1 hat.2
    refine List.lookup_eq_none_iff.mpr fun entry hentry => bne_iff_ne.mpr fun hsame => hinherited ?_
    obtain ⟨value, hvalue, rfl⟩ := List.mem_map.mp hentry
    rw [hsame]
    exact unknownFieldDiagnostics_eq_nil_iff.mp hnil value hvalue
  · obtain ⟨row, hrow, hd⟩ := (hfound d).mp ⟨hd, hklass⟩
    obtain ⟨value, hvalue, hnone, -⟩ := mem_unknownFieldDiagnostics hd
    obtain ⟨k, hk, hname⟩ := hkey row hrow value hvalue hnone
    rcases hown k hk with hsome | hunset
    · rw [hname, hnone] at hsome
      cases hsome
    · have hother := List.lookup_eq_none_iff.mp (hunset _ (List.mem_map_of_mem hrow)) _ (List.mem_map_of_mem hvalue)
      exact absurd hname (bne_iff_ne.mp hother)

/-- A list with two rows, and one that has its key from there and a row that sets it. -/
def lists : List LoadedFile := (LoadedFile.parse ⟨"App", "Data", "Kind"⟩ <|
  "domain DO_CODE \x7b map sql = \"varchar\"; \x7d "
    ++ "class Kind reference \x7b field Code: DO_CODE primary; field Rank: DO_CODE default 1; "
    ++ "values \x7b A \x7b Code = \"X\" \x7d B \x7b Code = \"Y\", Rank = 2 \x7d \x7d \x7d "
    ++ "class Sub : Kind reference \x7b values \x7b C \x7b Code = \"Z\" \x7d \x7d \x7d").toOption.toList

/-- The rows of both classes of `lists` are valid. The first declares its key, the second has a problem. -/
theorem exists_valid_lists :
    ∃ g problems first second, Graph.bind lists = .ok (g, problems)
      ∧ (g.resolve {}).nodes[0]? = some first ∧ (g.resolve {}).nodes[1]? = some second
      ∧ (first.toClass.hasRows = true ∧ first.toClass.RowsValid {} ((g.resolve {}).rowKey? 0)
        ∧ ∀ k ∈ (g.resolve {}).rowKey? 0, (first.property? k.name).isSome = true)
      ∧ second.toClass.hasRows = true ∧ second.toClass.RowsValid {} ((g.resolve {}).rowKey? 1)
      ∧ ∃ d ∈ (g.resolve {}).rowDiagnostics {}, d.klass = some second.name := by
  have hfound : (Graph.bind lists).toOption.any (fun bound =>
      (bound.1.resolve {}).nodes[0]?.any fun first => (bound.1.resolve {}).nodes[1]?.any fun second => decide (
        (first.toClass.hasRows = true ∧ first.toClass.RowsValid {} ((bound.1.resolve {}).rowKey? 0)
          ∧ ∀ k ∈ (bound.1.resolve {}).rowKey? 0, (first.property? k.name).isSome = true)
        ∧ second.toClass.hasRows = true ∧ second.toClass.RowsValid {} ((bound.1.resolve {}).rowKey? 1)
        ∧ ∃ d ∈ (bound.1.resolve {}).rowDiagnostics {}, d.klass = some second.name)) = true := by decide +kernel
  obtain ⟨⟨g, problems⟩, hsome, hfound⟩ := (Option.any_eq_true _ _).mp hfound
  obtain ⟨first, hfirst, hfound⟩ := (Option.any_eq_true _ _).mp hfound
  obtain ⟨second, hsecond, hfound⟩ := (Option.any_eq_true _ _).mp hfound
  exact ⟨g, problems, first, second, eq_ok_of_toOption hsome, hfirst, hsecond, of_decide_eq_true hfound⟩

theorem validRows_accepted_iff_lists :
    ∃ g problems node, Graph.bind lists = .ok (g, problems) ∧ (g.resolve {}).nodes[0]? = some node
      ∧ node.toClass.hasRows = true ∧ node.toClass.RowsValid {} ((g.resolve {}).rowKey? 0)
      ∧ ∀ d ∈ (g.resolve {}).rowDiagnostics {}, d.klass ≠ some node.name := by
  obtain ⟨g, problems, first, second, hbind, hfirst, -, ⟨hrows, hvalid, hown⟩, -⟩ := exists_valid_lists
  exact ⟨g, problems, first, hbind, hfirst, hrows, hvalid,
    (validRows_accepted_iff hbind hfirst hrows hvalid).2.mpr fun k hk => Or.inl (hown k hk)⟩

/-- Valid rows are refused if they set a key that their class inherits. -/
theorem validRows_refused :
    ∃ (settings : Settings) (files : List LoadedFile) (g : Graph) (problems : List Diagnostic) (position : Nat)
      (node : Node), Graph.bind files = .ok (g, problems) ∧ (g.resolve settings).nodes[position]? = some node
        ∧ node.toClass.hasRows = true ∧ node.toClass.RowsValid settings ((g.resolve settings).rowKey? position)
        ∧ ∃ d ∈ (g.resolve settings).rowDiagnostics settings, d.klass = some node.name := by
  obtain ⟨g, problems, -, second, hbind, -, hsecond, -, hrows, hvalid, hfound⟩ := exists_valid_lists
  exact ⟨{}, lists, g, problems, 1, second, hbind, hsecond, hrows, hvalid, hfound⟩

end Graph

end EntityModel
