import EntityModel.Proofs.Arrangement

/-!
# Code types

The code type of a foreign key has the name of its target and the name of the key, one behind the other. Two of them
have one name exactly if their targets and keys are the same, or if the one target goes on with what the other key
begins with (`codeTypes_distinct_iff_of_run`).
-/

namespace EntityModel

namespace Text

theorem append_eq_append_iff {a b c d : String} :
    a ++ b = c ++ d ↔ (∃ rest, c = a ++ rest ∧ b = rest ++ d) ∨ ∃ rest, a = c ++ rest ∧ d = rest ++ b := by
  simp only [← String.toList_inj, String.toList_append, List.append_eq_append_iff]
  constructor
  · rintro (⟨rest, hfirst, hlast⟩ | ⟨rest, hfirst, hlast⟩)
    · exact Or.inl ⟨.ofList rest, by rw [String.toList_ofList]; exact ⟨hfirst, hlast⟩⟩
    · exact Or.inr ⟨.ofList rest, by rw [String.toList_ofList]; exact ⟨hfirst, hlast⟩⟩
  · rintro (⟨rest, hfirst, hlast⟩ | ⟨rest, hfirst, hlast⟩)
    · exact Or.inl ⟨rest.toList, hfirst, hlast⟩
    · exact Or.inr ⟨rest.toList, hfirst, hlast⟩

theorem eq_append_self_iff {a rest : String} : a = a ++ rest ↔ rest = "" := by
  simp only [← String.toList_inj, String.toList_append, String.toList_empty, List.self_eq_append_right]

end Text

/-- The target of a reference goes on with what the key of another one begins with, and then names its target. -/
def Reference.Continues (r s : Reference) : Prop :=
  ∃ rest, rest ≠ "" ∧ r.klass = s.klass ++ rest ∧ s.key = rest ++ r.key

theorem Reference.same_iff_not_continues {r s : Reference} :
    (r.klass ++ r.key = s.klass ++ s.key → r.klass = s.klass ∧ r.key = s.key)
      ↔ ¬ (r.Continues s ∨ s.Continues r) := by
  constructor
  · rintro hsame (⟨rest, hrest, hklass, hkey⟩ | ⟨rest, hrest, hklass, hkey⟩)
    · have heq := hsame (by rw [hklass, hkey, String.append_assoc])
      exact hrest (Text.eq_append_self_iff.mp (heq.1.symm.trans hklass))
    · have heq := hsame (by rw [hklass, hkey, String.append_assoc])
      exact hrest (Text.eq_append_self_iff.mp (heq.1.trans hklass))
  · rintro hnot htexts
    rcases Text.append_eq_append_iff.mp htexts with ⟨rest, hklass, hkey⟩ | ⟨rest, hklass, hkey⟩
    · obtain rfl : rest = "" := Classical.not_not.mp fun hrest => hnot (Or.inr ⟨rest, hrest, hklass, hkey⟩)
      rw [hklass, hkey, String.append_empty, String.empty_append]
      exact ⟨rfl, rfl⟩
    · obtain rfl : rest = "" := Classical.not_not.mp fun hrest => hnot (Or.inl ⟨rest, hrest, hklass, hkey⟩)
      rw [hklass, hkey, String.append_empty, String.empty_append]
      exact ⟨rfl, rfl⟩

/-! ### References of bound properties -/

theorem ForeignKey.eq_of_clientType {target : Class} {key : Property} {settings : Settings} {name : String}
    (h : clientType target key settings = .code name) : name = target.name ++ key.name := by
  rw [clientType] at h
  split at h
  · exact (ClientType.code.inj h).symm
  · cases h

theorem Property.reference_bound {p : Property} {binding : KeyBinding} {r : Reference}
    (h : (p.bound binding).reference = some r) : p.reference = some r ∨ r = binding.reference := by
  cases p with
  | field p => exact Or.inl h
  | association p => exact Or.inr (Option.some.inj h).symm
  | composition p => exact Or.inl h
  | «alias» p =>
    unfold bound at h
    dsimp only at h
    split at h
    · exact Or.inr (Option.some.inj h).symm
    · exact Or.inr (Option.some.inj h).symm

theorem Property.MadeBy.reference {trigram : Option String} {d : Declaration.Property} {p : Property}
    (h : MadeBy trigram d p) : p.reference = none := by
  cases h with
  | own hmade =>
    cases d with
    | «alias» d => cases hmade
    | _ => cases hmade; rfl
  | copy => rfl

/-- The code type of what a property refers to has the name of the class and of the key. -/
theorem Property.MadeBoundBy.eq_of_clientType {settings : Settings} {trigram : Option String}
    {d : Declaration.Property} {p : Property} (h : MadeBoundBy settings trigram d p) {r : Reference}
    (hr : p.reference = some r) {name : String} (hname : r.clientType = .code name) : name = r.klass ++ r.key := by
  obtain ⟨made, hmade, rfl | ⟨target, key, binding, hbinding, rfl⟩⟩ := h
  · rw [hmade.reference] at hr
    cases hr
  · obtain hr | rfl := reference_bound hr
    · rw [hmade.reference] at hr
      cases hr
    · obtain ⟨_, _, -, -, rfl⟩ := KeyBinding.toKey?_eq_some hbinding
      exact ForeignKey.eq_of_clientType hname

/-! ### Published models -/

namespace Resolution

theorem eq_of_clientType_of_run {sources : Sources} {settings : Settings} {changed : Option (List FileId)}
    {version : Nat} {cache : ParseCache} {m : Model} {diagnostics : List Diagnostic}
    (h : (run sources settings changed version cache).2 = .ok ⟨some m, diagnostics⟩) {c : Class} (hc : c ∈ m.classes)
    {p : Property} (hp : p ∈ c.properties) {r : Reference} (hr : p.reference = some r) {name : String}
    (hname : r.clientType = .code name) : name = r.klass ++ r.key := by
  obtain ⟨_, ordered, g, problems, -, -, hbind, -, _, rfl⟩ := run_eq_ok_some h
  obtain ⟨node, hnode, rfl⟩ := List.mem_map.mp hc
  obtain ⟨entry, hentry, rfl⟩ := List.mem_map.mp hp
  obtain ⟨_, -, -, hmade⟩ := (Graph.arranged_resolve hbind).exists_madeAt hnode hentry
  exact hmade.eq_of_clientType hr hname

/-- **Code types tell lists apart** unless their names run into each other: equal code types of two properties of a
published model mean one target and one key if and only if neither target goes on with what the key of the other
begins with, so that the rest is its own key. -/
theorem codeTypes_distinct_iff_of_run {sources : Sources} {settings : Settings} {changed : Option (List FileId)}
    {version : Nat} {cache : ParseCache} {m : Model} {diagnostics : List Diagnostic}
    (h : (run sources settings changed version cache).2 = .ok ⟨some m, diagnostics⟩) {c d : Class}
    (hc : c ∈ m.classes) (hd : d ∈ m.classes) {p q : Property} (hp : p ∈ c.properties) (hq : q ∈ d.properties)
    {r s : Reference} (hr : p.reference = some r) (hs : q.reference = some s) {a b : String}
    (ha : r.clientType = .code a) (hb : s.clientType = .code b) :
    (a = b → r.klass = s.klass ∧ r.key = s.key) ↔ ¬ (r.Continues s ∨ s.Continues r) := by
  rw [eq_of_clientType_of_run h hc hp hr ha, eq_of_clientType_of_run h hd hq hs hb]
  exact Reference.same_iff_not_continues

/-- Three lists, two of them with names and keys that run into each other, and a class that refers to all. -/
def codedLists : Sources := .ofFiles <| .ofList [(⟨"App", "Data", "Item"⟩,
  "domain DO_ID \x7b map sql = \"int\"; \x7d domain DO_CODE \x7b map sql = \"varchar\"; \x7d "
    ++ "class A reference \x7b field BC: DO_CODE primary; \x7d "
    ++ "class AB reference \x7b field C: DO_CODE primary; \x7d "
    ++ "class Kind reference \x7b field Code: DO_CODE primary; \x7d "
    ++ "class Item \x7b field Id: DO_ID primary; ref X -> A; ref Y -> AB; ref Z -> Kind; \x7d")]

/-- Some class of a model refers to two keys. -/
def RefersToBoth (m : Model) (r s : Reference) : Prop :=
  ∃ c ∈ m.classes, (∃ p ∈ c.properties, p.reference = some r) ∧ ∃ p ∈ c.properties, p.reference = some s

instance (m : Model) (r s : Reference) : Decidable (RefersToBoth m r s) :=
  inferInstanceAs (Decidable (∃ c ∈ m.classes, (∃ p ∈ c.properties, p.reference = some r)
    ∧ ∃ p ∈ c.properties, p.reference = some s))

theorem run_codedLists :
    ∃ m diagnostics, (run codedLists { appName := some "App" } none 1 {}).2 = .ok ⟨some m, diagnostics⟩
      ∧ RefersToBoth m ⟨"A", "BC", .code "ABC"⟩ ⟨"Kind", "Code", .code "KindCode"⟩
      ∧ RefersToBoth m ⟨"A", "BC", .code "ABC"⟩ ⟨"AB", "C", .code "ABC"⟩ := by
  obtain ⟨m, diagnostics, hrun, hfound⟩ := exists_ok_of_any_model
    (show ((run codedLists { appName := some "App" } none 1 {}).2.toOption.bind Resolution.model).any (fun m => decide
      (RefersToBoth m ⟨"A", "BC", .code "ABC"⟩ ⟨"Kind", "Code", .code "KindCode"⟩
        ∧ RefersToBoth m ⟨"A", "BC", .code "ABC"⟩ ⟨"AB", "C", .code "ABC"⟩)) = true by decide +kernel)
  exact ⟨m, diagnostics, hrun, of_decide_eq_true hfound⟩

theorem codeTypes_distinct_iff_of_run_codedLists :
    ∃ m diagnostics, (run codedLists { appName := some "App" } none 1 {}).2 = .ok ⟨some m, diagnostics⟩
      ∧ ∃ r s : Reference, r = ⟨"A", "BC", .code "ABC"⟩ ∧ s = ⟨"Kind", "Code", .code "KindCode"⟩ ∧ RefersToBoth m r s
        ∧ ¬ (r.Continues s ∨ s.Continues r) := by
  obtain ⟨m, diagnostics, hrun, hboth, -⟩ := run_codedLists
  refine ⟨m, diagnostics, hrun, _, _, rfl, rfl, hboth, ?_⟩
  obtain ⟨c, hc, ⟨p, hp, hr⟩, q, hq, hs⟩ := hboth
  exact (codeTypes_distinct_iff_of_run hrun hc hc hp hq hr hs rfl rfl).mp fun hsame => absurd hsame (by decide)

/-- The other two lists have one code type. -/
theorem codeTypes_of_two_lists :
    ∃ sources settings changed version cache m diagnostics,
      (run sources settings changed version cache).2 = .ok ⟨some m, diagnostics⟩
      ∧ ∃ r s : Reference, RefersToBoth m r s ∧ ∃ name, r.clientType = .code name ∧ s.clientType = .code name
        ∧ ¬ (r.klass = s.klass ∧ r.key = s.key) := by
  obtain ⟨m, diagnostics, hrun, -, hboth⟩ := run_codedLists
  exact ⟨codedLists, _, none, 1, {}, m, diagnostics, hrun, _, _, hboth, "ABC", rfl, rfl, by decide⟩

end Resolution

end EntityModel
