import EntityModel.Proofs.KeyLookup
import EntityModel.Proofs.ValidRows

/-!
# Keys of rows

The check of rows compares the values that rows give to the key of their class as they read, and finds a row that lacks
a value for a property of the class that has no default. So rows that give the key a value have ones that read
differently, and all rows do if the class declares the key itself, without a default (`rowKeys_of_run`). Values that
read differently are different ones, but for the zeros of both signs (`rows_share_zero`). What rows have from a default,
or for an inherited key, no check looks at (`rows_share_default`).
-/

namespace EntityModel

open Diagnostic (hasErrors)

/-! ### Values that differ -/

/-- Zeros of both signs. -/
structure Binary64.OppositeZeros (x y : Binary64) : Prop where
  first : x.isZero = true
  second : y.isZero = true
  sign : x.isNegative ≠ y.isNegative

theorem Binary64.toNat_bits_of_isZero {x : Binary64} (h : x.isZero = true) :
    x.bits.toNat = if x.isNegative then Nat.pow 2 63 else 0 := by
  have hlt := x.bits.toNat_lt
  simp only [isZero, biased, fraction, Bool.and_eq_true, beq_iff_eq, isNegative, Nat.pow_eq, Nat.reducePow] at h ⊢
  split <;> omega

theorem Binary64.isNaN_of_isZero {x : Binary64} (h : x.isZero = true) : x.isNaN = false := by
  simp only [isZero, Bool.and_eq_true, beq_iff_eq] at h
  simp [isNaN, h.2]

theorem Binary64.equals_iff_of_ne {x y : Binary64} (h : x ≠ y) : x.equals y = true ↔ x.OppositeZeros y := by
  rw [equals, beq_false_of_ne h, Bool.false_or]
  constructor
  · intro hequals
    simp only [Bool.and_eq_true] at hequals
    obtain ⟨-, hx, hy⟩ := hequals
    refine ⟨hx, hy, fun hsign => h ?_⟩
    have hbits := (toNat_bits_of_isZero hx).trans (hsign ▸ (toNat_bits_of_isZero hy).symm)
    exact congrArg Binary64.mk (UInt64.toNat_inj.mp hbits)
  · rintro ⟨hx, hy, -⟩
    rw [isNaN_of_isZero hx, isNaN_of_isZero hy, hx, hy]
    rfl

/-- Two values read differently, and are different values unless they are the zeros of both signs. -/
structure Literal.Differs (v w : Literal) : Prop where
  text : v.text ≠ w.text
  equals : v.equals w = true ↔ ∃ x y : Binary64, v = .number x ∧ w = .number y ∧ x.OppositeZeros y

theorem Literal.differs_of_text {v w : Literal} (h : v.text ≠ w.text) : v.Differs w := by
  refine ⟨h, ?_⟩
  have hne : v ≠ w := fun heq => h (congrArg text heq)
  cases v with
  | number x =>
    cases w with
    | number y =>
      refine (Binary64.equals_iff_of_ne fun heq => hne (congrArg number heq)).trans ⟨fun hzero => ?_, ?_⟩
      · exact ⟨x, y, rfl, rfl, hzero⟩
      · rintro ⟨_, _, ⟨⟩, ⟨⟩, hzero⟩
        exact hzero
    | _ => exact iff_of_false (by simp [equals]) (by simp)
  | _ => exact iff_of_false (by simpa [equals] using hne) (by simp)

/-- The value that tells a row apart: what it gives to the key, or else the default of the key. -/
def Row.keyValue? (row : Row) (key : Property) : Option Literal := (row.get? key.name).or key.default

/-- The property that tells the rows of a class apart: its declared key, or else its primary key. -/
def Model.rowKey? (m : Model) (c : Class) : Option Property :=
  match c.uniqueKey with
  | some name => c.property? name
  | none => m.primaryKey? c

namespace Graph

variable {settings : Settings} {g : Graph} {files : List LoadedFile} {node : Node} {key : Option Property}

/-! ### The check -/

theorem keyText?_ne_of_clean {earlier : List Declaration.Row} {row : Declaration.Row}
    (h : hasErrors (g.repeatedKeyDiagnostics node key earlier row) = false) {text : String}
    (htext : keyText? key row = some text) : ∀ before ∈ earlier, keyText? key before ≠ some text := by
  unfold repeatedKeyDiagnostics at h
  rw [htext] at h
  dsimp only at h
  split at h
  · cases h
  · next hnew =>
    intro before hbefore hsame
    exact hnew (List.any_eq_true.mpr ⟨before, hbefore, by rw [hsame, beq_self_eq_true]⟩)

theorem isSome_of_clean {row : Declaration.Row} (h : hasErrors (missingValueDiagnostics settings g node row) = false)
    {p : Spanned Property} (hp : p ∈ node.properties) (homit : mayOmit settings p.value = false) :
    ((Row.ofDeclaration row).get? p.value.name).isSome = true := by
  unfold missingValueDiagnostics at h
  rw [hasErrors, List.any_map, List.any_eq_false] at h
  by_contra hnone
  rw [Bool.not_eq_true, Option.isSome_eq_false_iff] at hnone
  exact h p (List.mem_filter.mpr ⟨hp, by rw [homit, hnone]; rfl⟩) rfl

theorem name_ne_of_clean {earlier : List Declaration.Row} {row : Declaration.Row}
    (h : hasErrors (g.repeatedRowDiagnostics node earlier row) = false) :
    ∀ before ∈ earlier, before.name.value ≠ row.name.value := by
  unfold repeatedRowDiagnostics at h
  split at h
  · cases h
  · next hnew => exact fun before hbefore hsame => hnew (List.any_eq_true.mpr ⟨before, hbefore, beq_iff_eq.mpr hsame⟩)

theorem isSome_property?_of_clean {row : Declaration.Row}
    (h : hasErrors (g.unknownFieldDiagnostics node row) = false) :
    ∀ value ∈ row.values, (node.property? value.1.value).isSome = true := by
  unfold unknownFieldDiagnostics at h
  rw [hasErrors, List.any_map, List.any_eq_false] at h
  intro value hvalue
  by_contra hnone
  rw [Bool.not_eq_true, Option.isSome_eq_false_iff] at hnone
  exact h value (List.mem_filter.mpr ⟨hvalue, hnone⟩) rfl

/-- A row gives every value that it needs to, and values of properties of its class only. -/
structure Fits (settings : Settings) (node : Node) (row : Declaration.Row) : Prop where
  given : ∀ p ∈ node.properties, mayOmit settings p.value = false →
    ((Row.ofDeclaration row).get? p.value.name).isSome = true
  known : ∀ value ∈ row.values, (node.property? value.1.value).isSome = true

/-- Two rows have different names, and give the key values that read differently if they both give it one. -/
structure Apart (key : Option Property) (a b : Declaration.Row) : Prop where
  name : a.name.value ≠ b.name.value
  key : ∀ text, keyText? key b = some text → keyText? key a ≠ some text

/-- What a check of rows that finds nothing says of them: each fits its class, and they are apart from each other and
from those before them. -/
theorem rows_of_clean {earlier rows : List Declaration.Row}
    (h : hasErrors (rowDiagnosticsAfter settings g node key earlier rows) = false) :
    (∀ row ∈ rows, Fits settings node row) ∧ (∀ row ∈ rows, ∀ before ∈ earlier, Apart key before row)
      ∧ rows.Pairwise (Apart key) := by
  induction rows generalizing earlier with
  | nil => exact ⟨by simp, by simp, List.Pairwise.nil⟩
  | cons row rows ih =>
    simp only [rowDiagnosticsAfter, Diagnostic.hasErrors_append, Bool.or_eq_false_iff] at h
    obtain ⟨⟨⟨⟨hname, hmissing⟩, hunknown⟩, hkey⟩, hrest⟩ := h
    obtain ⟨hfits, hearlier, hpairwise⟩ := ih hrest
    refine ⟨fun other hother => ?_, fun other hother before hbefore => ?_, ?_⟩
    · rcases List.mem_cons.mp hother with rfl | hother
      · exact ⟨fun p hp homit => isSome_of_clean hmissing hp homit, isSome_property?_of_clean hunknown⟩
      · exact hfits other hother
    · rcases List.mem_cons.mp hother with rfl | hother
      · exact ⟨name_ne_of_clean hname before hbefore, fun text htext => keyText?_ne_of_clean hkey htext before hbefore⟩
      · exact hearlier other hother before (List.mem_cons_of_mem _ hbefore)
    · exact List.pairwise_cons.mpr ⟨fun other hother => hearlier other hother row List.mem_cons_self, hpairwise⟩

theorem rows_of_rowDiagnostics (hclean : hasErrors (g.rowDiagnostics settings) = false) {a : Nat}
    (hnode : g.nodes[a]? = some node) (hrows : node.toClass.hasRows = true) :
    (∀ row ∈ node.declared.rows, Fits settings node row) ∧ node.declared.rows.Pairwise (Apart (g.rowKey? a)) := by
  have hplace : (node, a) ∈ g.nodes.zipIdx := by
    rw [List.mem_zipIdx_iff_getElem?]
    exact hnode
  have hfound := Diagnostic.hasErrors_of_flatMap hclean hplace
  rw [classRowDiagnostics_of_hasRows hrows] at hfound
  exact ⟨(rows_of_clean hfound).1, (rows_of_clean hfound).2.2⟩

/-! ### The key of a class -/

variable (version : Nat) (warnings : List Diagnostic)

theorem rowKey?_toModel (hg : g.Bound files) {a : Nat} (hnode : g.nodes[a]? = some node) :
    (g.toModel version settings warnings).rowKey? node.toClass = g.rowKey? a := by
  rw [Model.rowKey?, rowKey?, hnode, Option.bind_some]
  rcases node.toClass.uniqueKey with _ | name
  · exact primaryKey?_toModel_eq version warnings hg hnode
  · rfl

theorem exists_unique_of_checkUniqueKeys (hunique : g.checkUniqueKeys = .ok ()) (hnode : node ∈ g.nodes) {name : String}
    (hname : node.toClass.uniqueKey = some name) : ∃ own, node.property? name = some own ∧ own.isUnique = true := by
  unfold checkUniqueKeys at hunique
  split at hunique
  · cases hunique
  · next hbroken =>
    have hnone := List.findSome?_eq_none_iff.mp hbroken node hnode
    rw [brokenKey?, hname, Option.bind_some, ite_eq_left_iff] at hnone
    have hany : (node.property? name).any Property.isUnique = true := by
      by_contra hother
      cases hnone hother
    exact (Option.any_eq_true _ _).mp hany

theorem isPersisted_of_rowKey? (hunique : g.checkUniqueKeys = .ok ()) {a : Nat} {own : Property}
    (h : g.rowKey? a = some own) : own.isPersisted = true := by
  obtain ⟨node, hnode, hkey⟩ := Option.bind_eq_some_iff.mp h
  have hfield : own.isUnique = true := by
    split at hkey
    · next name hname =>
      obtain ⟨found, hfound, hunique⟩ := exists_unique_of_checkUniqueKeys hunique (List.mem_of_getElem? hnode) hname
      rwa [Option.some.inj (hkey.symm.trans hfound)]
    · obtain ⟨found, hfound, rfl⟩ := Option.map_eq_some_iff.mp hkey
      have hprimary := (isPrimaryKey_of_primaryKeyAbove? hfound).1
      cases hvalue : found.2 with
      | field p =>
        rw [hvalue] at hprimary
        exact (congrArg (p.unique || ·) hprimary).trans (Bool.or_true _)
      | _ =>
        rw [hvalue] at hprimary
        cases hprimary
  cases own with
  | field p => rfl
  | _ => cases hfield

/-- Rows may not leave out the key of a class, unless it is a generated identifier or has a default. -/
theorem mayOmit_of_rowKey? (hunique : g.checkUniqueKeys = .ok ()) {a : Nat} {own : Property}
    (hkey : g.rowKey? a = some own)
    (hidentity : ¬ (own.isPrimaryKey = true ∧ own.domain = some settings.identifierDomain))
    (hdefault : own.default = none) : mayOmit settings own = false := by
  have hpersisted := isPersisted_of_rowKey? hunique hkey
  have hgenerated : (own.isPrimaryKey && own.domain == some settings.identifierDomain) = false := by
    rw [Bool.eq_false_iff]
    intro hboth
    simp only [Bool.and_eq_true, beq_iff_eq] at hboth
    exact hidentity hboth
  rw [mayOmit, hgenerated, hdefault, hpersisted]
  rfl

theorem differs_of_apart {own : Property} {r s : Declaration.Row} (hapart : Apart (some own) r s) {v w : Literal}
    (hv : (Row.ofDeclaration r).get? own.name = some v) (hw : (Row.ofDeclaration s).get? own.name = some w) :
    v.Differs w := by
  have htext : keyText? (some own) r = some v.text := by simp [keyText?, hv]
  have htext' : keyText? (some own) s = some w.text := by simp [keyText?, hw]
  exact Literal.differs_of_text fun hsame => hapart.key w.text htext' (htext.trans (congrArg some hsame))

theorem keyValue?_of_get? {own : Property} {row : Row} {v : Literal} (h : row.get? own.name = some v) :
    row.keyValue? own = some v := by
  rw [Row.keyValue?, h, Option.some_or]

end Graph

namespace Resolution

/-- **Rows that give their key a value have ones that differ.** In a published model, for a class with rows whose key
is no generated identifier: two rows that give the key a value differ in it, and if the class declares the key
itself, without a default, all its rows do. -/
theorem rowKeys_of_run {sources : Sources} {settings : Settings} {changed : Option (List FileId)} {version : Nat}
    {cache : ParseCache} {m : Model} {diagnostics : List Diagnostic}
    (h : (run sources settings changed version cache).2 = .ok ⟨some m, diagnostics⟩) {c : Class}
    (hc : c ∈ m.classes) (hrows : c.hasRows = true) {key : Property} (hkey : m.rowKey? c = some key)
    (hidentity : ¬ (key.isPrimaryKey = true ∧ key.domain = some m.settings.identifierDomain)) :
    (c.rows.Pairwise fun a b => ∀ v w, a.get? key.name = some v → b.get? key.name = some w →
        a.keyValue? key = some v ∧ b.keyValue? key = some w ∧ v.Differs w)
      ∧ (key ∈ c.properties → key.default = none →
        c.rows.Pairwise fun a b => ∃ v w, a.keyValue? key = some v ∧ b.keyValue? key = some w ∧ v.Differs w) := by
  obtain ⟨files, ordered, g, problems, -, -, hbind, hgraph⟩ := run_eq_ok h
  obtain ⟨hclean, ws, rfl⟩ := clean_of_ofGraph hgraph
  obtain ⟨_, hunique, -⟩ := bind_eq_ok_iff.mp hgraph
  obtain ⟨node, hmem, rfl⟩ := List.mem_map.mp hc
  obtain ⟨a, hnode⟩ := List.mem_iff_getElem?.mp hmem
  have hbound := (hclean.resolved (List.Subset.refl _) hbind).bound
  rw [Graph.rowKey?_toModel version ws hbound hnode] at hkey
  have hchecks := hclean.checks
  simp only [Graph.checkDiagnostics, Diagnostic.hasErrors_append, Bool.or_eq_false_iff] at hchecks
  obtain ⟨hfits, hdistinct⟩ := Graph.rows_of_rowDiagnostics hchecks.2 hnode hrows
  rw [hkey] at hdistinct
  have hrowsEq : node.toClass.rows = node.declared.rows.map Row.ofDeclaration := rfl
  have hexplicit : node.toClass.rows.Pairwise fun a b => ∀ v w, a.get? key.name = some v →
      b.get? key.name = some w → a.keyValue? key = some v ∧ b.keyValue? key = some w ∧ v.Differs w := by
    rw [hrowsEq, List.pairwise_map]
    exact hdistinct.imp fun {r s} hapart v w hv hw =>
      ⟨Graph.keyValue?_of_get? hv, Graph.keyValue?_of_get? hw, Graph.differs_of_apart hapart hv hw⟩
  refine ⟨hexplicit, fun hown hdefault => ?_⟩
  obtain ⟨p, hp, rfl⟩ := List.mem_map.mp hown
  have homit := Graph.mayOmit_of_rowKey? hunique hkey hidentity hdefault
  have hgiven : ∀ row ∈ node.toClass.rows, ∃ v, row.get? p.value.name = some v := by
    intro row hrow
    obtain ⟨declared, hdeclared, rfl⟩ := List.mem_map.mp hrow
    exact Option.isSome_iff_exists.mp ((hfits declared hdeclared).given p hp homit)
  refine hexplicit.imp_of_mem fun {r s} hr hs hdiffers => ?_
  obtain ⟨v, hv⟩ := hgiven r hr
  obtain ⟨w, hw⟩ := hgiven s hs
  exact ⟨v, w, hdiffers v w hv hw⟩

/-- A list with a key of its own that all rows give a value. -/
def coded : Sources := .ofFiles <| .ofList [(⟨"App", "Data", "Kind"⟩,
  "domain DO_CODE \x7b map sql = \"varchar\"; \x7d class Kind reference \x7b field Code: DO_CODE primary; "
    ++ "values \x7b A \x7b Code = \"X\" \x7d B \x7b Code = \"Y\" \x7d \x7d \x7d")]

def code : Property := .field { name := "Code", domain := "DO_CODE", primaryKey := true, column := "CODE" }

theorem rowKeys_of_run_coded :
    ∃ m diagnostics, (run coded { appName := some "App" } none 1 {}).2 = .ok ⟨some m, diagnostics⟩
      ∧ ∃ c ∈ m.classes, c.rows.length = 2 ∧ m.rowKey? c = some code
        ∧ c.rows.Pairwise fun a b =>
          ∃ v w, a.keyValue? code = some v ∧ b.keyValue? code = some w ∧ v.Differs w := by
  obtain ⟨m, diagnostics, hrun, hfound⟩ := exists_ok_of_any_model
    (show ((run coded { appName := some "App" } none 1 {}).2.toOption.bind Resolution.model).any (fun m => decide
      (m.settings.identifierDomain = "DO_ID" ∧ ∃ c ∈ m.classes, c.rows.length = 2 ∧ c.hasRows = true
        ∧ m.rowKey? c = some code ∧ code ∈ c.properties)) = true by decide +kernel)
  obtain ⟨hdomain, c, hc, hlength, hrows, hkey, hown⟩ := of_decide_eq_true hfound
  have hidentity : ¬ (code.isPrimaryKey = true ∧ code.domain = some m.settings.identifierDomain) := by
    rw [hdomain]
    decide
  exact ⟨m, diagnostics, hrun, c, hc, hlength, hkey, (rowKeys_of_run hrun hc hrows hkey hidentity).2 hown rfl⟩

/-- An enumeration whose rows leave its key to the default. -/
def defaulted : Sources := .ofFiles <| .ofList [(⟨"App", "Data", "Kind"⟩,
  "domain DO_CODE \x7b map sql = \"varchar\"; \x7d class Kind enum \x7b field Code: DO_CODE primary default \"X\"; "
    ++ "values \x7b A \x7b\x7d B \x7b\x7d \x7d \x7d")]

def defaultedCode : Property :=
  .field { name := "Code", domain := "DO_CODE", primaryKey := true, default := some (.string "X"), column := "CODE" }

/-- Two rows may have their key from its default: nothing tells them apart by it. -/
theorem rows_share_default :
    ∃ m diagnostics, (run defaulted { appName := some "App" } none 1 {}).2 = .ok ⟨some m, diagnostics⟩
      ∧ ∃ c ∈ m.classes, c.hasRows = true ∧ m.rowKey? c = some defaultedCode
        ∧ ¬ (defaultedCode.isPrimaryKey = true ∧ defaultedCode.domain = some m.settings.identifierDomain)
        ∧ ∃ a ∈ c.rows, ∃ b ∈ c.rows, a ≠ b ∧ ∃ v ∈ a.keyValue? defaultedCode, ∃ w ∈ b.keyValue? defaultedCode,
          v.equals w = true := by
  obtain ⟨m, diagnostics, hrun, hfound⟩ := exists_ok_of_any_model
    (show ((run defaulted { appName := some "App" } none 1 {}).2.toOption.bind Resolution.model).any (fun m => decide
      (∃ c ∈ m.classes, c.hasRows = true ∧ m.rowKey? c = some defaultedCode
        ∧ ¬ (defaultedCode.isPrimaryKey = true ∧ defaultedCode.domain = some m.settings.identifierDomain)
        ∧ ∃ a ∈ c.rows, ∃ b ∈ c.rows, a ≠ b ∧ ∃ v ∈ a.keyValue? defaultedCode, ∃ w ∈ b.keyValue? defaultedCode,
          v.equals w = true)) = true by
      decide +kernel)
  exact ⟨m, diagnostics, hrun, of_decide_eq_true hfound⟩

/-- An enumeration whose rows have the zeros of both signs for a key. -/
def signedZeros : Sources := .ofFiles <| .ofList [(⟨"App", "Data", "Kind"⟩,
  "domain DO_CODE \x7b map sql = \"varchar\"; \x7d class Kind enum \x7b field Code: DO_CODE primary; "
    ++ "values \x7b A \x7b Code = 0.0 \x7d B \x7b Code = -0.0 \x7d \x7d \x7d")]

/-- Two rows may have the zeros of both signs, which are equal and read differently. -/
theorem rows_share_zero :
    ∃ m diagnostics, (run signedZeros { appName := some "App" } none 1 {}).2 = .ok ⟨some m, diagnostics⟩
      ∧ ∃ c ∈ m.classes, c.hasRows = true ∧ m.rowKey? c = some code
        ∧ ∃ a ∈ c.rows, ∃ b ∈ c.rows, a ≠ b ∧ ∃ v ∈ a.get? code.name, ∃ w ∈ b.get? code.name, v.equals w = true := by
  obtain ⟨m, diagnostics, hrun, hfound⟩ := exists_ok_of_any_model
    (show ((run signedZeros { appName := some "App" } none 1 {}).2.toOption.bind Resolution.model).any (fun m => decide
      (∃ c ∈ m.classes, c.hasRows = true ∧ m.rowKey? c = some code
        ∧ ∃ a ∈ c.rows, ∃ b ∈ c.rows, a ≠ b ∧ ∃ v ∈ a.get? code.name, ∃ w ∈ b.get? code.name,
          v.equals w = true)) = true by decide +kernel)
  exact ⟨m, diagnostics, hrun, of_decide_eq_true hfound⟩

end Resolution

end EntityModel
