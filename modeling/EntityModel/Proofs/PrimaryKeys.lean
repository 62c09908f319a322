import EntityModel.Proofs.Published
import Mathlib.Logic.Relation

/-!
# Primary keys of published models

The check of a class looks at its own keys and at the first one above it. If no class has a problem there is one
key at most on the way up from any class: of two, the lower would be found to redeclare the upper. A search that
goes round in a circle has seen all that the class extends and has found no key there (`keyless_of_extends`), so
that classes in a circle have none at all. Main result: `primaryKey_unique_of_run`.
-/

namespace EntityModel

open Relation (ReflTransGen)
open Diagnostic (hasErrors)

/-- A class above another: the class itself, or one that it extends, directly or not. -/
def Model.Above (m : Model) : Class → Class → Prop := ReflTransGen fun c d => m.parent? c = some d

/-- A primary key of a class, declared by it or by one that it extends: the class that declares it, and its
position among the properties there. -/
def Model.HasKey (m : Model) (c : Class) (place : Class × Nat) : Prop :=
  m.Above c place.1 ∧ ∃ p, place.1.properties[place.2]? = some p ∧ p.isPrimaryKey = true

theorem exists_index_of_filter_eq_singleton {α : Type} {q : α → Bool} {l : List α} {a : α} (h : l.filter q = [a]) :
    ∃ i, ∀ j : Nat, (∃ b, l[j]? = some b ∧ q b = true) ↔ j = i := by
  obtain ⟨before, after, rfl, hbefore, ha, hafter⟩ := List.filter_eq_cons_iff.mp h
  refine ⟨before.length, fun j => ⟨?_, ?_⟩⟩
  · rintro ⟨b, hb, hq⟩
    rcases Nat.lt_trichotomy j before.length with hlt | heq | hgt
    · rw [List.getElem?_append_left hlt] at hb
      exact absurd hq (hbefore b (List.mem_of_getElem? hb))
    · exact heq
    · obtain ⟨k, hk⟩ : ∃ k, j - before.length = k + 1 := ⟨j - before.length - 1, by omega⟩
      rw [List.getElem?_append_right (Nat.le_of_lt hgt), hk, List.getElem?_cons_succ] at hb
      exact absurd hq (List.filter_eq_nil_iff.mp hafter b (List.mem_of_getElem? hb))
  · rintro rfl
    exact ⟨a, by rw [List.getElem?_append_right (Nat.le_refl _), Nat.sub_self, List.getElem?_cons_zero], ha⟩

namespace Graph

variable {g : Graph}

/-! ### The way up -/

/-- The class at a position extends the one at another. -/
def Extends (g : Graph) (a b : Nat) : Prop := ∃ node, g.nodes[a]? = some node ∧ node.parent = some b

theorem parent_of_extends {a b : Nat} {node : Node} (hnode : g.nodes[a]? = some node) (h : g.Extends a b) :
    node.parent = some b := by
  obtain ⟨node', hnode', hparent⟩ := h
  rw [hnode] at hnode'
  cases hnode'
  exact hparent

theorem extends_rightUnique (g : Graph) : Relator.RightUnique g.Extends := by
  rintro a b c ⟨node, hnode, hb⟩ hc
  exact Option.some.inj (hb.symm.trans (parent_of_extends hnode hc))

/-- No class at a position declares a primary key. -/
def Keyless (g : Graph) (a : Nat) : Prop := ∀ node, g.nodes[a]? = some node → node.toClass.ownPrimaryKey? = none

theorem keyless_of_node {a : Nat} {node : Node} (hnode : g.nodes[a]? = some node)
    (hown : node.toClass.ownPrimaryKey? = none) : g.Keyless a := by
  intro node' hnode'
  rw [hnode] at hnode'
  cases hnode'
  exact hown

/-- Where a search ends without a key, all that it has come by is keyless and extends nothing else. -/
theorem exists_closed_of_primaryKeyAbove? {visited : List Nat} {a : Nat} (h : g.primaryKeyAbove? visited a = none)
    (hvisited : ∀ b ∈ visited, g.Keyless b ∧ ∀ c, g.Extends b c → c ∈ a :: visited) :
    ∃ closed : List Nat, a :: visited ⊆ closed ∧ ∀ b ∈ closed, g.Keyless b ∧ ∀ c, g.Extends b c → c ∈ closed := by
  fun_induction primaryKeyAbove? g visited a with
  | case1 visited a hcontains =>
    -- the search has come round, so that what it has visited is closed already
    have ha : a ∈ visited := List.contains_iff_mem.mp hcontains
    have hsub : a :: visited ⊆ visited := List.cons_subset.mpr ⟨ha, List.Subset.refl _⟩
    exact ⟨visited, hsub, fun b hb => ⟨(hvisited b hb).1, fun c hc => hsub ((hvisited b hb).2 c hc)⟩⟩
  | case2 visited a hfresh hnone =>
    refine ⟨a :: visited, List.Subset.refl _, fun b hb => ?_⟩
    rcases List.mem_cons.mp hb with rfl | hb
    · refine ⟨fun node hnode => ?_, fun c hc => ?_⟩
      · rw [hnone] at hnode
        cases hnode
      · obtain ⟨node, hnode, -⟩ := hc
        rw [hnone] at hnode
        cases hnode
    · exact hvisited b hb
  | case3 => cases h
  | case4 visited a hfresh node hnode hown hparent =>
    refine ⟨a :: visited, List.Subset.refl _, fun b hb => ?_⟩
    rcases List.mem_cons.mp hb with rfl | hb
    · refine ⟨keyless_of_node hnode hown, fun c hc => ?_⟩
      have hsome := parent_of_extends hnode hc
      rw [hparent] at hsome
      cases hsome
    · exact hvisited b hb
  | case5 visited a hfresh node hnode hown parent hparent _ ih =>
    obtain ⟨closed, hsub, hclosed⟩ := ih h fun b hb => by
      rcases List.mem_cons.mp hb with rfl | hb
      · refine ⟨keyless_of_node hnode hown, fun c hc => ?_⟩
        have hsame : parent = c := Option.some.inj (hparent.symm.trans (parent_of_extends hnode hc))
        exact hsame ▸ List.mem_cons_self
      · exact ⟨(hvisited b hb).1, fun c hc => List.mem_cons_of_mem _ ((hvisited b hb).2 c hc)⟩
    exact ⟨closed, fun b hb => hsub (List.mem_cons_of_mem _ hb), hclosed⟩

theorem keyless_of_extends {a b : Nat} (h : g.primaryKey? a = none) (habove : ReflTransGen g.Extends a b) :
    g.Keyless b := by
  obtain ⟨closed, hsub, hclosed⟩ :=
    exists_closed_of_primaryKeyAbove? h fun b hb => absurd hb List.not_mem_nil
  have hmem : b ∈ closed := by
    induction habove with
    | refl => exact hsub List.mem_cons_self
    | tail _ hstep ih => exact (hclosed _ ih).2 _ hstep
  exact (hclosed b hmem).1

theorem extends_of_primaryKeyAbove? {visited : List Nat} {a b : Nat} {key : Property}
    (h : g.primaryKeyAbove? visited a = some (b, key)) :
    ReflTransGen g.Extends a b ∧ ∃ node, g.nodes[b]? = some node ∧ node.toClass.ownPrimaryKey? = some key := by
  fun_induction primaryKeyAbove? g visited a with
  | case1 => cases h
  | case2 => cases h
  | case3 visited a hfresh node hnode own hown =>
    cases h
    exact ⟨.refl, node, hnode, hown⟩
  | case4 => cases h
  | case5 visited a hfresh node hnode hown parent hparent _ ih =>
    obtain ⟨habove, hkey⟩ := ih h
    exact ⟨habove.head ⟨node, hnode, hparent⟩, hkey⟩

/-! ### Keys by their places -/

/-- A primary key of a class stands at a place. -/
def KeyAt (g : Graph) (place : PropertyPosition) : Prop :=
  ∃ p, g.propertyAt? place = some p ∧ p.value.isPrimaryKey = true

theorem keyAt_iff {a i : Nat} {node : Node} (hnode : g.nodes[a]? = some node) :
    g.KeyAt ⟨a, i⟩ ↔ ∃ p, node.properties[i]? = some p ∧ p.value.isPrimaryKey = true := by
  rw [KeyAt, propertyAt?, hnode, Option.bind_some]

theorem ownPrimaryKey?_eq_none_iff {node : Node} :
    node.toClass.ownPrimaryKey? = none ↔ node.properties.filter (·.value.isPrimaryKey) = [] := by
  simp [Class.ownPrimaryKey?, Node.toClass]

theorem not_keyless_of_keyAt {place : PropertyPosition} (h : g.KeyAt place) : ¬ g.Keyless place.owner := by
  intro hkeyless
  obtain ⟨p, hp, hkey⟩ := h
  obtain ⟨node, hnode, hp⟩ := Option.bind_eq_some_iff.mp hp
  have hnone := ownPrimaryKey?_eq_none_iff.mp (hkeyless node hnode)
  exact absurd hkey (List.filter_eq_nil_iff.mp hnone p (List.mem_of_getElem? hp))

/-! ### The check -/

/-- What the check of a class has found if there is no problem: one key of its own and none above it, or none of its
own and, if it needs one, one above it. -/
theorem keys_of_clean {node : Node} (h : hasErrors (g.keyDiagnostics node) = false) :
    (∃ own, node.properties.filter (·.value.isPrimaryKey) = [own] ∧ g.inheritedKey? node = none)
      ∨ node.properties.filter (·.value.isPrimaryKey) = []
        ∧ (node.declared.isAbstract = false → node.declared.databaseOnly = false →
          ∃ found, g.inheritedKey? node = some found) := by
  rcases hkeys : node.properties.filter (·.value.isPrimaryKey) with _ | ⟨own, _ | ⟨second, rest⟩⟩
  · refine Or.inr ⟨hkeys, fun habstract hdatabase => ?_⟩
    rcases hinherited : g.inheritedKey? node with _ | found
    · simp only [keyDiagnostics, hkeys, hinherited, habstract, hdatabase] at h
      cases h
    · exact ⟨found, rfl⟩
  · refine Or.inl ⟨own, hkeys, ?_⟩
    rcases hinherited : g.inheritedKey? node with _ | found
    · rfl
    · simp only [keyDiagnostics, hkeys, hinherited] at h
      cases h
  · simp only [keyDiagnostics, hkeys] at h
    cases h

section clean

variable (hclean : hasErrors g.primaryKeyDiagnostics = false)
include hclean

theorem keys_of_getElem? {a : Nat} {node : Node} (hnode : g.nodes[a]? = some node) :
    (∃ own, node.properties.filter (·.value.isPrimaryKey) = [own] ∧ g.inheritedKey? node = none)
      ∨ node.properties.filter (·.value.isPrimaryKey) = []
        ∧ (node.declared.isAbstract = false → node.declared.databaseOnly = false →
          ∃ found, g.inheritedKey? node = some found) :=
  keys_of_clean (Diagnostic.hasErrors_of_flatMap hclean (List.mem_of_getElem? hnode))

theorem eq_of_keyAt_above {place above : PropertyPosition} (hplace : g.KeyAt place) (hkey : g.KeyAt above)
    (habove : ReflTransGen g.Extends place.owner above.owner) : place = above := by
  obtain ⟨a, i⟩ := place
  obtain ⟨b, j⟩ := above
  obtain ⟨p, hp, hprimary⟩ := hplace
  obtain ⟨node, hnode, -⟩ := Option.bind_eq_some_iff.mp hp
  rcases keys_of_getElem? hclean hnode with ⟨own, hone, hinherited⟩ | ⟨hnone, -⟩
  · rcases Relation.ReflTransGen.cases_head habove with rfl | ⟨parent, hstep, hrest⟩
    · obtain ⟨k, hk⟩ := exists_index_of_filter_eq_singleton hone
      have hi := (hk i).mp ((keyAt_iff hnode).mp ⟨p, hp, hprimary⟩)
      have hj := (hk j).mp ((keyAt_iff hnode).mp hkey)
      rw [hi, hj]
    · -- the check has found no key above, so that there is none however far up
      rw [inheritedKey?, parent_of_extends hnode hstep, Option.bind_some] at hinherited
      exact absurd (keyless_of_extends hinherited hrest) (not_keyless_of_keyAt hkey)
  · have hkeyless := keyless_of_node hnode (ownPrimaryKey?_eq_none_iff.mpr hnone)
    exact absurd hkeyless (not_keyless_of_keyAt ⟨p, hp, hprimary⟩)

theorem keyAt_unique {a : Nat} {place place' : PropertyPosition} (hplace : g.KeyAt place) (hplace' : g.KeyAt place')
    (habove : ReflTransGen g.Extends a place.owner) (habove' : ReflTransGen g.Extends a place'.owner) :
    place = place' := by
  rcases Relation.ReflTransGen.total_of_right_unique g.extends_rightUnique habove habove' with h | h
  · exact eq_of_keyAt_above hclean hplace hplace' h
  · exact (eq_of_keyAt_above hclean hplace' hplace h).symm

theorem exists_keyAt {a : Nat} {node : Node} (hnode : g.nodes[a]? = some node)
    (habstract : node.declared.isAbstract = false) (hdatabase : node.declared.databaseOnly = false) :
    ∃ place, g.KeyAt place ∧ ReflTransGen g.Extends a place.owner := by
  rcases keys_of_getElem? hclean hnode with ⟨own, hone, -⟩ | ⟨-, hneeds⟩
  · obtain ⟨i, hi⟩ := exists_index_of_filter_eq_singleton hone
    exact ⟨⟨a, i⟩, (keyAt_iff hnode).mpr ((hi i).mpr rfl), .refl⟩
  · obtain ⟨⟨b, key⟩, hfound⟩ := hneeds habstract hdatabase
    obtain ⟨parent, hparent, hkey⟩ := Option.bind_eq_some_iff.mp hfound
    obtain ⟨habove, owner, howner, hown⟩ := extends_of_primaryKeyAbove? hkey
    rcases keys_of_getElem? hclean howner with ⟨own, hone, -⟩ | ⟨hnone, -⟩
    · obtain ⟨i, hi⟩ := exists_index_of_filter_eq_singleton hone
      exact ⟨⟨b, i⟩, (keyAt_iff howner).mpr ((hi i).mpr rfl), habove.head ⟨node, hnode, hparent⟩⟩
    · rw [ownPrimaryKey?_eq_none_iff.mpr hnone] at hown
      cases hown

end clean

/-! ### The model -/

variable {settings : Settings} {files : List LoadedFile} (version : Nat) (warnings : List Diagnostic)

theorem above_toModel_iff (hg : g.Bound files) {a : Nat} {node : Node} (hnode : g.nodes[a]? = some node) {d : Class} :
    (g.toModel version settings warnings).Above node.toClass d
      ↔ ∃ b above, ReflTransGen g.Extends a b ∧ g.nodes[b]? = some above ∧ above.toClass = d := by
  constructor
  · intro h
    induction h with
    | refl => exact ⟨a, node, .refl, hnode, rfl⟩
    | tail _ hparent ih =>
      obtain ⟨b, lower, hreach, hlower, rfl⟩ := ih
      rw [parent?_toModel version warnings hg (List.mem_of_getElem? hlower), Option.map_eq_some_iff] at hparent
      obtain ⟨upper, hupper, rfl⟩ := hparent
      obtain ⟨c, hc, hupper⟩ := Option.bind_eq_some_iff.mp hupper
      exact ⟨c, upper, hreach.tail ⟨lower, hlower, hc⟩, hupper, rfl⟩
  · rintro ⟨b, above, hreach, habove, rfl⟩
    induction hreach generalizing above with
    | refl =>
      rw [hnode] at habove
      cases habove
      exact .refl
    | tail _ hstep ih =>
      obtain ⟨lower, hlower, hparent⟩ := hstep
      refine (ih lower hlower).tail ?_
      rw [parent?_toModel version warnings hg (List.mem_of_getElem? hlower), hparent, Option.bind_some, habove,
        Option.map_some]

theorem hasKey_toModel_iff (hg : g.Bound files) {a : Nat} {node : Node} (hnode : g.nodes[a]? = some node)
    {place : Class × Nat} :
    (g.toModel version settings warnings).HasKey node.toClass place
      ↔ ∃ b above, ReflTransGen g.Extends a b ∧ g.nodes[b]? = some above ∧ above.toClass = place.1
        ∧ g.KeyAt ⟨b, place.2⟩ := by
  have hkey : ∀ {b : Nat} {above : Node}, g.nodes[b]? = some above → (g.KeyAt ⟨b, place.2⟩
      ↔ ∃ p, above.toClass.properties[place.2]? = some p ∧ p.isPrimaryKey = true) := by
    intro b above habove
    rw [keyAt_iff habove, Node.toClass, List.getElem?_map]
    constructor
    · rintro ⟨p, hp, hprimary⟩
      exact ⟨p.value, by rw [hp, Option.map_some], hprimary⟩
    · rintro ⟨value, hvalue, hprimary⟩
      obtain ⟨p, hp, rfl⟩ := Option.map_eq_some_iff.mp hvalue
      exact ⟨p, hp, hprimary⟩
  rw [Model.HasKey, above_toModel_iff version warnings hg hnode]
  constructor
  · rintro ⟨⟨b, above, hreach, habove, hsame⟩, hprimary⟩
    rw [← hsame] at hprimary
    exact ⟨b, above, hreach, habove, hsame, (hkey habove).mpr hprimary⟩
  · rintro ⟨b, above, hreach, habove, hsame, hprimary⟩
    refine ⟨⟨b, above, hreach, habove, hsame⟩, ?_⟩
    rw [← hsame]
    exact (hkey habove).mp hprimary

theorem hasKey_unique (hg : g.Bound files) (hclean : hasErrors g.primaryKeyDiagnostics = false) {a : Nat}
    {node : Node} (hnode : g.nodes[a]? = some node) {place place' : Class × Nat}
    (hplace : (g.toModel version settings warnings).HasKey node.toClass place)
    (hplace' : (g.toModel version settings warnings).HasKey node.toClass place') : place = place' := by
  obtain ⟨b, above, hreach, habove, hsame, hkey⟩ := (hasKey_toModel_iff version warnings hg hnode).mp hplace
  obtain ⟨b', above', hreach', habove', hsame', hkey'⟩ := (hasKey_toModel_iff version warnings hg hnode).mp hplace'
  have heq := keyAt_unique hclean hkey hkey' hreach hreach'
  obtain ⟨rfl, hindex⟩ := PropertyPosition.mk.inj heq
  rw [habove] at habove'
  cases habove'
  exact Prod.ext (hsame.symm.trans hsame') hindex

theorem exists_hasKey (hg : g.Bound files) (hclean : hasErrors g.primaryKeyDiagnostics = false) {a : Nat}
    {node : Node} (hnode : g.nodes[a]? = some node) (habstract : node.declared.isAbstract = false)
    (hdatabase : node.declared.databaseOnly = false) :
    ∃ place, (g.toModel version settings warnings).HasKey node.toClass place := by
  obtain ⟨⟨b, i⟩, hkey, hreach⟩ := exists_keyAt hclean hnode habstract hdatabase
  have ⟨p, hp, _⟩ := hkey
  obtain ⟨above, habove, -⟩ := Option.bind_eq_some_iff.mp hp
  exact ⟨(above.toClass, i), (hasKey_toModel_iff version warnings hg hnode).mpr ⟨b, above, hreach, habove, rfl, hkey⟩⟩

end Graph

namespace Resolution

/-- **A class has one primary key**: at most one among its own properties and those of all classes that it extends,
and just one unless it is abstract or kept in the database only. -/
theorem primaryKey_unique_of_run {sources : Sources} {settings : Settings} {changed : Option (List FileId)}
    {version : Nat} {cache : ParseCache} {m : Model} {diagnostics : List Diagnostic}
    (h : (run sources settings changed version cache).2 = .ok ⟨some m, diagnostics⟩) {c : Class}
    (hc : c ∈ m.classes) :
    (∀ place place', m.HasKey c place → m.HasKey c place' → place = place')
      ∧ (c.isAbstract = false → c.databaseOnly = false → ∃! place, m.HasKey c place) := by
  obtain ⟨files, ordered, g, problems, -, -, hbind, hclean, warnings, rfl⟩ := run_eq_ok_some h
  have hbound := (hclean.resolved (List.Subset.refl _) hbind).bound
  obtain ⟨node, hmem, rfl⟩ := List.mem_map.mp hc
  obtain ⟨a, hnode⟩ := List.mem_iff_getElem?.mp hmem
  have hunique : ∀ place place', ((g.resolve settings).toModel version settings warnings).HasKey node.toClass place →
      ((g.resolve settings).toModel version settings warnings).HasKey node.toClass place' → place = place' :=
    fun _ _ hplace hplace' => Graph.hasKey_unique version warnings hbound hclean.primaryKeys hnode hplace hplace'
  refine ⟨hunique, fun habstract hdatabase => ?_⟩
  obtain ⟨place, hplace⟩ :=
    Graph.exists_hasKey version warnings hbound hclean.primaryKeys hnode habstract hdatabase
  exact ⟨place, hplace, fun place' hplace' => hunique place' place hplace' hplace⟩

/-- A class that extends one with a key, and two classes that extend each other. -/
def ring : Sources := .ofFiles <| .ofList [(⟨"App", "Data", "Ring"⟩,
  "domain DO_ID \x7b map sql = \"int\"; \x7d class Base \x7b field Id: DO_ID primary; \x7d class Part : Base \x7b \x7d "
    ++ "class Left : Right \x7b abstract; \x7d class Right : Left \x7b dbonly; \x7d")]

theorem primaryKey_unique_of_run_ring :
    ∃ m diagnostics, (run ring { appName := some "App" } none 1 {}).2 = .ok ⟨some m, diagnostics⟩
      ∧ (∃ c ∈ m.classes, c.name = "Part" ∧ c.parent = some "Base" ∧ ∃! place, m.HasKey c place)
      ∧ ∃ c ∈ m.classes, c.name = "Left" ∧ c.parent = some "Right"
        ∧ ∀ place place', m.HasKey c place → m.HasKey c place' → place = place' := by
  obtain ⟨m, diagnostics, hrun, hfound⟩ := exists_ok_of_any_model
    (show ((run ring { appName := some "App" } none 1 {}).2.toOption.bind Resolution.model).any (fun m => decide
      ((∃ c ∈ m.classes, c.name = "Part" ∧ c.parent = some "Base" ∧ c.isAbstract = false ∧ c.databaseOnly = false)
        ∧ ∃ c ∈ m.classes, c.name = "Left" ∧ c.parent = some "Right")) = true by decide +kernel)
  obtain ⟨⟨part, hpart, hname, hparent, habstract, hdatabase⟩, left, hleft, hname', hparent'⟩ :=
    of_decide_eq_true hfound
  exact ⟨m, diagnostics, hrun,
    ⟨part, hpart, hname, hparent, (primaryKey_unique_of_run hrun hpart).2 habstract hdatabase⟩,
    left, hleft, hname', hparent', (primaryKey_unique_of_run hrun hleft).1⟩

end Resolution

end EntityModel
