import EntityModel.Proofs.PrimaryKeys

/-!
# Searches for primary keys

In a graph the way up from a class ends where a class comes up again, in a model after as many classes as it has. Both
find the key that is the first on the way, and none if there is none on it: as a way without repetition is no longer
than the number of classes, a bound of that size cuts nothing off, and one that goes in a circle has no key to find
however long it is followed (`primaryKey?_agrees`).
-/

namespace EntityModel

open Relation (ReflTransGen)

theorem Model.mem_of_class? {m : Model} {name : String} {c : Class} (h : m.class? name = some c) : c ∈ m.classes :=
  List.mem_of_find?_eq_some h

theorem Model.exists_above_of_primaryKeyWithin? {m : Model} {n : Nat} {c : Class} (hc : c ∈ m.classes) {key : Property}
    (h : m.primaryKeyWithin? n c = some key) :
    ∃ owner ∈ m.classes, m.Above c owner ∧ owner.ownPrimaryKey? = some key := by
  induction n generalizing c with
  | zero => cases h
  | succ n ih =>
    rw [primaryKeyWithin?] at h
    split at h
    · next own hown =>
      obtain rfl := Option.some.inj h
      exact ⟨c, hc, .refl, hown⟩
    · obtain ⟨parent, hparent, hkey⟩ := Option.bind_eq_some_iff.mp h
      obtain ⟨name, -, hclass⟩ := Option.bind_eq_some_iff.mp hparent
      obtain ⟨owner, howner, habove, hown⟩ := ih (mem_of_class? hclass) hkey
      exact ⟨owner, howner, .head hparent habove, hown⟩

namespace Graph

variable {settings : Settings} {g : Graph} {files : List LoadedFile} {node : Node}

theorem primaryKey?_eq_none_iff {a : Nat} :
    g.primaryKey? a = none ↔ ∀ b, ReflTransGen g.Extends a b → g.Keyless b := by
  refine ⟨fun hnone b habove => keyless_of_extends hnone habove, fun hkeyless => ?_⟩
  rcases hkey : g.primaryKey? a with _ | ⟨b, key⟩
  · rfl
  · obtain ⟨habove, owner, howner, hown⟩ := extends_of_primaryKeyAbove? hkey
    have hnone := hkeyless b habove owner howner
    rw [hown] at hnone
    cases hnone

variable (version : Nat) (warnings : List Diagnostic)

/-- The search in a model finds what the search in the graph finds, whatever its bound, if that is not less than the
number of classes. -/
theorem primaryKeyWithin?_toModel_eq (hg : g.Bound files) {a : Nat} (hnode : g.nodes[a]? = some node) {n : Nat}
    (hn : g.nodes.length ≤ n) :
    (g.toModel version settings warnings).primaryKeyWithin? n node.toClass = (g.primaryKey? a).map Prod.snd := by
  rcases hkey : g.primaryKey? a with _ | ⟨owner, own⟩
  · rcases hmodel : (g.toModel version settings warnings).primaryKeyWithin? n node.toClass with _ | own
    · rfl
    · have hmem : node.toClass ∈ (g.toModel version settings warnings).classes :=
        List.mem_map_of_mem (List.mem_of_getElem? hnode)
      obtain ⟨_, -, habove, hown⟩ := Model.exists_above_of_primaryKeyWithin? hmem hmodel
      obtain ⟨b, above, hreach, hposition, rfl⟩ := (above_toModel_iff version warnings hg hnode).mp habove
      rw [keyless_of_extends hkey hreach above hposition] at hown
      cases hown
  · -- a search that has seen no class yet has all of them before it
    have hfresh : unvisited (List.range g.nodes.length) [] ≤ n :=
      calc unvisited (List.range g.nodes.length) []
          ≤ (List.range g.nodes.length).length := List.countP_le_length
        _ ≤ n := by rwa [List.length_range]
    exact primaryKeyWithin?_toModel version warnings hg hkey hnode hfresh

theorem primaryKey?_toModel_eq (hg : g.Bound files) {a : Nat} (hnode : g.nodes[a]? = some node) :
    (g.toModel version settings warnings).primaryKey? node.toClass = (g.primaryKey? a).map Prod.snd := by
  refine primaryKeyWithin?_toModel_eq version warnings hg hnode ?_
  rw [toModel, List.length_map]
  exact Nat.le_succ _

/-- **Graphs and models have the same primary keys.** At each stage, whatever classes extend each other, a class has
the same parent in the model of a graph as in the graph, and the search in the model gives what the search in the graph
gives; its bound does not decide, as any other one that is not less than the number of classes gives the same. Both find
none exactly if no class on the way up declares one. -/
theorem primaryKey?_agrees {problems : List Diagnostic} (hbind : Graph.bind files = .ok (g, problems))
    (settings : Settings) {stage : Graph} (hstage : stage ∈ [g, (g.expandAliases settings).1, g.resolve settings])
    {a : Nat} (hnode : stage.nodes[a]? = some node) :
    (stage.toModel version settings warnings).parent? node.toClass
        = (node.parent.bind (stage.nodes[·]?)).map Node.toClass
      ∧ (stage.toModel version settings warnings).primaryKey? node.toClass = (stage.primaryKey? a).map Prod.snd
      ∧ (∀ n, stage.nodes.length ≤ n →
        (stage.toModel version settings warnings).primaryKeyWithin? n node.toClass
          = (stage.primaryKey? a).map Prod.snd)
      ∧ (stage.primaryKey? a = none ↔ ∀ b, ReflTransGen stage.Extends a b → stage.Keyless b) := by
  have houtline : g.outline = stage.outline := by
    simp only [List.mem_cons, List.not_mem_nil, or_false] at hstage
    rcases hstage with rfl | rfl | rfl
    · rfl
    · exact (outline_expandAliases g).symm
    · exact (outline_resolve settings g).symm
  have hbound := (bound_of_bind hbind).congr houtline
  exact ⟨parent?_toModel version warnings hbound (List.mem_of_getElem? hnode),
    primaryKey?_toModel_eq version warnings hbound hnode,
    fun _ hn => primaryKeyWithin?_toModel_eq version warnings hbound hnode hn, primaryKey?_eq_none_iff⟩

/-- A class with a key that two classes inherit, one from the other, and a class that extends one of two classes which
extend each other. -/
def ladders : List LoadedFile := (LoadedFile.parse ⟨"App", "Data", "Ladder"⟩ <|
  "domain DO_ID \x7b map sql = \"int\"; \x7d class Low : Mid \x7b \x7d class Mid : Top \x7b \x7d "
    ++ "class Top \x7b field Id: DO_ID primary; alias Top_Id_Old; \x7d "
    ++ "class Foot : Left \x7b \x7d class Left : Right \x7b \x7d class Right : Left \x7b \x7d").toOption.toList

theorem primaryKey?_agrees_ladders :
    ∃ g problems low foot key, Graph.bind ladders = .ok (g, problems)
      ∧ (g.resolve {}).nodes[0]? = some low ∧ (g.resolve {}).nodes[3]? = some foot
      ∧ ((g.resolve {}).toModel 1 {} []).primaryKey? low.toClass = some key
      ∧ ((g.resolve {}).toModel 1 {} []).primaryKey? foot.toClass = none := by
  have hfound : (Graph.bind ladders).toOption.any (fun bound =>
      (bound.1.resolve {}).nodes[0]?.isSome && (bound.1.resolve {}).nodes[3]?.isSome
        && ((bound.1.resolve {}).primaryKey? 0).isSome && ((bound.1.resolve {}).primaryKey? 3).isNone) = true := by
    decide +kernel
  obtain ⟨⟨g, problems⟩, hsome, hfound⟩ := (Option.any_eq_true _ _).mp hfound
  have hbind := eq_ok_of_toOption hsome
  simp only [Bool.and_eq_true, Option.isSome_iff_exists, Option.isNone_iff_eq_none] at hfound
  obtain ⟨⟨⟨⟨low, hlow⟩, foot, hfoot⟩, ⟨_, key⟩, hkey⟩, hnone⟩ := hfound
  have hlast : g.resolve {} ∈ [g, (g.expandAliases {}).1, g.resolve {}] := by simp
  refine ⟨g, problems, low, foot, key, hbind, hlow, hfoot, ?_, ?_⟩
  · rw [(primaryKey?_agrees 1 [] hbind {} hlast hlow).2.1, hkey, Option.map_some]
  · rw [(primaryKey?_agrees 1 [] hbind {} hlast hfoot).2.1, hnone, Option.map_none]

end Graph

end EntityModel
