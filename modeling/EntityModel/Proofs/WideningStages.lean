import EntityModel.Proofs.AliasCopies
import EntityModel.Proofs.WideningNames

/-!
# Resolving with one more file

The expansion of aliases and the binding of foreign keys go from class to class and change one at a time. A step of
a class that is kept does in both graphs the same, as all that it looks up is the same; a step of one that is put in
changes nothing else (`expandAliases_eq`, `bindForeignKeys_eq`).
-/

namespace EntityModel

open Diagnostic (besides)

/-- What a file has for the index of alias sources, by key. -/
def LoadedFile.sourceKeys (settings : Settings) (file : LoadedFile) : List String :=
  file.declared.classes.flatMap fun declared =>
    ((Node.ofDeclaration file.id declared).properties.filter (Graph.isAliasSource settings ·.value)).map
      fun property => AliasToken.indexKey declared.name.value property.value.name

namespace Graph.Widens

variable {settings : Settings} {w : Widening} {g g' : Graph}

/-! ### The index of alias sources -/

/-- Two indexes agree on all keys but those of the file. -/
def SameSources (settings : Settings) (w : Widening) (index index' : SourceIndex) : Prop :=
  ∀ key ∉ w.file.sourceKeys settings, index'.lookup key = (index.lookup key).map w.moveProperty

variable {index index' : SourceIndex}

theorem indexProperty_kept (h : g.Widens w g') (hindex : SameSources settings w index index') {node : Node}
    (hfile : node.file ≠ w.file.id) (owner : Nat) {place : Spanned Property × Nat}
    (hkey : AliasToken.indexKey node.name place.1.value.name ∉ w.file.sourceKeys settings) :
    SameSources settings w (g.indexProperty owner node index place).1
        (g'.indexProperty (w.place owner) (w.move node) index' place).1
      ∧ besides w.file.id (g'.indexProperty (w.place owner) (w.move node) index' place).2
        = (g.indexProperty owner node index place).2 := by
  constructor
  · intro key hnot
    rw [lookup_indexProperty, lookup_indexProperty, hindex key hnot, Option.map_or, Widening.name_move]
    congr 1
    rw [List.lookup_cons, List.lookup_cons]
    cases key == AliasToken.indexKey node.name place.1.value.name <;> rfl
  · rw [(g'.refusals_indexProperty (w.move node) _ index' place).besides_eq_self hfile]
    unfold indexProperty
    dsimp only
    rw [Widening.name_move, hindex _ hkey]
    rcases index.lookup (AliasToken.indexKey node.name place.1.value.name) with _ | first
    · rfl
    · dsimp only [Option.map_some, Widening.moveProperty]
      by_cases howner : first.owner = owner
      · rw [if_pos howner, if_pos (congrArg w.place howner)]
      · rw [if_neg howner, if_neg (mt (@w.place_injective _ _) howner), h.name_at, h.propertyDiagnostic_eq hfile]

theorem indexProperty_other (hindex : SameSources settings w index index') {node : Node} (hfile : node.file = w.file.id)
    (owner : Nat) {place : Spanned Property × Nat}
    (hkey : AliasToken.indexKey node.name place.1.value.name ∈ w.file.sourceKeys settings) :
    SameSources settings w index (g'.indexProperty owner node index' place).1
      ∧ besides w.file.id (g'.indexProperty owner node index' place).2 = [] := by
  refine ⟨fun key hnot => ?_, (g'.refusals_indexProperty node owner index' place).besides_eq_nil hfile⟩
  have hne : key ≠ AliasToken.indexKey node.name place.1.value.name := fun heq => hnot (heq ▸ hkey)
  rw [lookup_indexProperty, List.lookup_cons, beq_false_of_ne hne, List.lookup_nil, Option.or_none, hindex key hnot]

/-- The keys of the classes that are put in are those of the file, and the keys of the others are not. -/
structure Separates (settings : Settings) (w : Widening) (g g' : Graph) : Prop where
  kept : ∀ node ∈ g.nodes, ∀ p ∈ node.properties, isAliasSource settings p.value = true →
    AliasToken.indexKey node.name p.value.name ∉ w.file.sourceKeys settings
  other : ∀ node ∈ g'.nodes, node.file = w.file.id → ∀ p ∈ node.properties, isAliasSource settings p.value = true →
    AliasToken.indexKey node.name p.value.name ∈ w.file.sourceKeys settings

theorem sourceIndex_eq (h : g.Widens w g') (hfiles : ∀ node ∈ g.nodes, node.file ≠ w.file.id)
    (hkeys : Separates settings w g g') :
    SameSources settings w (sourceIndex settings g).1 (sourceIndex settings g').1
      ∧ besides w.file.id (sourceIndex settings g').2 = (sourceIndex settings g).2 := by
  refine Diagnostic.besides_collect (SameSources settings w) h.zipIdx_nodes ?_ ?_ fun _ _ => rfl
  · intro (node, owner) hnode index index' hindex
    have hmem : node ∈ g.nodes := List.fst_mem_of_mem_zipIdx hnode
    refine Diagnostic.besides_collect_same (SameSources settings w)
      (fun (p, position) hp index index' hindex => ?_) hindex
    obtain ⟨hp, hsource⟩ := List.mem_filter.mp hp
    exact h.indexProperty_kept hindex (hfiles node hmem) owner
      (hkeys.kept node hmem p (List.fst_mem_of_mem_zipIdx hp) hsource)
  · intro (node, owner) hnode hkeeps index index' hindex
    have hmem : node ∈ g'.nodes := List.fst_mem_of_mem_zipIdx hnode
    have hfile := (h.other_at hkeeps (List.mem_zipIdx_iff_getElem?.mp hnode)).1
    refine Diagnostic.besides_collect_other (SameSources settings w index)
      (fun (p, position) hp index' hindex => ?_) hindex
    obtain ⟨hp, hsource⟩ := List.mem_filter.mp hp
    exact indexProperty_other hindex hfile owner
      (hkeys.other node hmem hfile p (List.fst_mem_of_mem_zipIdx hp) hsource)

/-! ### The expansion of aliases -/

/-- The class of a token that the file does not declare keys none of its properties. -/
theorem key_not_mem_sourceKeys {file : LoadedFile} {text : String} {token : AliasToken}
    (htoken : AliasToken.parse? text = some token) (hklass : token.klass ∉ file.classNames) :
    token.key ∉ file.sourceKeys settings := by
  intro hkey
  obtain ⟨declared, hdeclared, hkey⟩ := List.mem_flatMap.mp hkey
  obtain ⟨property, -, heq⟩ := List.mem_map.mp hkey
  refine hklass ?_
  rw [← ((AliasToken.indexKey_eq_key_iff htoken).mp heq).1]
  exact List.mem_map_of_mem hdeclared

theorem source?_eq (h : g.Widens w g') (hindex : SameSources settings w index index') {token : AliasToken}
    (hkey : token.key ∉ w.file.sourceKeys settings) :
    g'.source? index' token = (g.source? index token).map (Prod.map w.move id) := by
  simp only [source?, hindex token.key hkey, Option.bind_eq_bind, Option.pure_def]
  rcases index.lookup token.key with _ | place
  · rfl
  · simp only [Option.map_some, Option.bind_some, Widening.moveProperty, h.getElem?_place]
    rcases g.nodes[place.owner]? with _ | owner
    · rfl
    · simp only [Option.map_some, Option.bind_some, Widening.properties_move]
      rcases owner.properties[place.index]? with _ | property <;> rfl

theorem aliasProperty?_eq (h : g.Widens w g') (hindex : SameSources settings w index index') {node : Node}
    (hfile : node.file ≠ w.file.id) {declared : Declaration.Alias}
    (hdeclared : ∀ token, AliasToken.parse? declared.token.value = some token → token.klass ∉ w.file.classNames) :
    g'.aliasProperty? index' (w.move node) declared = g.aliasProperty? index node declared := by
  obtain ⟨⟨text, span⟩, label, whole⟩ := declared
  unfold aliasProperty?
  dsimp only
  rcases htoken : AliasToken.parse? text with _ | token
  · dsimp only
    rw [h.fieldDiagnostic_eq hfile]
  · dsimp only
    rw [h.source?_eq hindex (key_not_mem_sourceKeys htoken (hdeclared token htoken))]
    rcases g.source? index token with _ | ⟨owner, source⟩
    · rw [Option.map_none]
      dsimp only
      rw [h.fieldDiagnostic_eq hfile]
    · rw [Option.map_some]
      dsimp only [Prod.map_apply, id_eq]
      rw [Widening.file_move, Widening.file_move, h.isVisible_eq hfile, h.fieldDiagnostic_eq hfile, Widening.name_move,
        Widening.toClass_move]

end Graph.Widens

namespace Graph

variable {settings : Settings} {w : Widening} {g g' : Graph} {index index' : SourceIndex}

/-- The graph `g'` is `g` with the classes of a file put in, which no class of `g` refers to. -/
structure Disregards (w : Widening) (g g' : Graph) : Prop extends g.Widens w g' where
  apart : ∀ node ∈ g.nodes, node.Apart w.file

theorem apart_insertAlias {file : LoadedFile} {node owner : Node} (hnode : node.Apart file) (howner : owner.Apart file)
    {p : Spanned Property} (hp : p ∈ owner.properties) (declared : Declaration.Alias) (token : AliasToken)
    (position : Nat) :
    (Node.insertAlias node position ⟨.alias (aliasOf declared token owner.toClass p.value), declared.span⟩).Apart
      file where
  file := hnode.file
  name := hnode.name
  parent := hnode.parent
  target q hq name hname := by
    rcases mem_of_mem_insertIdx hq with rfl | hq
    · have hlink : aliasLink owner.toClass p.value = some name := hname
      unfold aliasLink at hlink
      split at hlink
      · next a ha => exact howner.target p hp name (by rw [ha]; exact hlink)
      · split at hlink
        · exact Option.some.inj hlink ▸ howner.name
        · cases hlink
      · cases hlink
    · exact hnode.target q hq name hname
  domain q hq field hfield := by
    rcases mem_of_mem_insertIdx hq with rfl | hq
    · cases hfield
    · exact hnode.domain q hq field hfield

namespace Disregards

theorem set (h : g.Disregards w g') (i : Nat) {node : Node} (hnode : node.Apart w.file) :
    ({ g with nodes := g.nodes.set i node } : Graph).Disregards w
      { g' with nodes := g'.nodes.set (w.place i) (w.move node) } where
  toWidens := h.toWidens.set i node
  apart other hother := (List.mem_or_eq_of_mem_set hother).elim (h.apart other) fun heq => heq ▸ hnode

theorem expandAlias_kept (h : g.Disregards w g') (hindex : Widens.SameSources settings w index index')
    {pending : PendingAlias} (hpending : ∀ token, AliasToken.parse? pending.declared.token.value = some token →
      token.klass ∉ w.file.classNames) :
    (expandAlias index g pending).1.Disregards w (expandAlias index' g' (w.movePending pending)).1
      ∧ besides w.file.id (expandAlias index' g' (w.movePending pending)).2 = (expandAlias index g pending).2 := by
  have hat := h.getElem?_place pending.owner
  rcases hnode : g.nodes[pending.owner]? with _ | node
  · rw [hnode, Option.map_none] at hat
    simp only [expandAlias, hnode, Widening.movePending, hat]
    exact ⟨h, rfl⟩
  · rw [hnode, Option.map_some] at hat
    have hat' : g'.nodes[(w.movePending pending).owner]? = some (w.move node) := hat
    have hapart := h.apart node (List.mem_of_getElem? hnode)
    have hsame : g'.aliasProperty? index' (w.move node) (w.movePending pending).declared
        = g.aliasProperty? index node pending.declared := h.aliasProperty?_eq hindex hapart.file hpending
    rw [expandAlias_snd hnode, expandAlias_snd hat', hsame]
    refine ⟨?_, (g.refusals_aliasProperty? node index pending.declared).besides_eq_self hapart.file⟩
    rcases ha : (g.aliasProperty? index node pending.declared).1 with _ | a
    · rw [expandAlias_eq_none hnode ha, expandAlias_eq_none hat' (hsame ▸ ha)]
      exact h
    · rw [expandAlias_eq_some hnode ha, expandAlias_eq_some hat' (hsame ▸ ha)]
      rw [aliasProperty?_fst] at ha
      obtain ⟨token, -, ha⟩ := Option.bind_eq_some_iff.mp ha
      obtain ⟨⟨owner, source⟩, hsource, rfl⟩ := Option.map_eq_some_iff.mp ha
      obtain ⟨howner, p, hp, rfl⟩ := source?_eq_some hsource
      exact h.set pending.owner
        (apart_insertAlias hapart (h.apart owner howner) hp pending.declared token pending.position)

theorem expandAlias_other (h : g.Disregards w g') {pending : PendingAlias} (hkeeps : w.keeps pending.owner = false) :
    g.Disregards w (expandAlias index' g' pending).1
      ∧ besides w.file.id (expandAlias index' g' pending).2 = [] := by
  rcases hnode : g'.nodes[pending.owner]? with _ | node
  · simp only [expandAlias, hnode]
    exact ⟨h, rfl⟩
  · have hfile := (h.other_at hkeeps hnode).1
    rw [expandAlias_snd hnode]
    refine ⟨?_, (g'.refusals_aliasProperty? node index' pending.declared).besides_eq_nil hfile⟩
    rcases ha : (g'.aliasProperty? index' node pending.declared).1 with _ | a
    · rw [expandAlias_eq_none hnode ha]
      exact h
    · rw [expandAlias_eq_some hnode ha]
      exact ⟨h.set_other hkeeps hnode rfl rfl, h.apart⟩

/-- **Expanding aliases with one more file.** -/
theorem expandAliases_eq (h : g.Disregards w g') (hkeys : Widens.Separates settings w g g')
    (hpending : ∀ a ∈ g.pending, ∀ token, AliasToken.parse? a.declared.token.value = some token →
      token.klass ∉ w.file.classNames) :
    (g.expandAliases settings).1.Disregards w (g'.expandAliases settings).1
      ∧ besides w.file.id (g'.expandAliases settings).2 = (g.expandAliases settings).2 := by
  obtain ⟨hindex, hconflicts⟩ := h.sourceIndex_eq (fun node hnode => (h.apart node hnode).file) hkeys
  have hstart : ({ g with pending := [] } : Graph).Disregards w { g' with pending := [] } :=
    ⟨⟨h.nodes, rfl, h.scope, h.domains⟩, h.apart⟩
  obtain ⟨hend, hfound⟩ := Diagnostic.besides_collect (Disregards w) h.pending
    (fun a ha _ _ hstate => hstate.expandAlias_kept hindex (hpending a ha))
    (fun _ _ hkeeps _ _ hstate => hstate.expandAlias_other hkeeps) hstart
  exact ⟨hend, by rw [expandAliases, expandAliases, Diagnostic.besides_append, hconflicts, hfound]⟩

end Disregards

/-! ### The binding of foreign keys -/

namespace Widens

variable (h : g.Widens w g')
include h

theorem boundKey?_eq (position : Nat) (property : Property) :
    g'.boundKey? (w.place position) property = g.boundKey? position property := by
  have hproperty (name : String) : (g'.nodes[w.place position]?.bind (·.property? name))
      = g.nodes[position]?.bind (·.property? name) := by
    rw [h.getElem?_place]
    rcases g.nodes[position]? with _ | node <;> rfl
  unfold boundKey?
  split
  · rw [hproperty, h.map_snd_primaryKey?]
  · rw [h.map_snd_primaryKey?]

variable {node : Node} (hfile : node.file ≠ w.file.id)
include hfile

theorem binding?_eq (property : Spanned Property) (position : Nat) (target : Node) :
    g'.binding? settings (w.move node) property (w.place position) (w.move target)
      = g.binding? settings node property position target := by
  unfold binding?
  dsimp only
  simp only [h.boundKey?_eq, h.propertyDiagnostic_eq hfile, Widening.toClass_move, Widening.name_move]

theorem visibilityDiagnostics_eq (property : Spanned Property) (target : Node) :
    g'.visibilityDiagnostics (w.move node) property (w.move target) = g.visibilityDiagnostics node property target := by
  simp only [visibilityDiagnostics, Widening.file_move, h.isVisible_eq hfile, h.propertyDiagnostic_eq hfile,
    Widening.name_move]

theorem boundProperty_eq {property : Spanned Property}
    (htarget : ∀ name, property.value.target? = some name → name ∉ w.file.classNames) :
    g'.boundProperty settings (w.move node) property = g.boundProperty settings node property := by
  unfold boundProperty
  rcases hname : property.value.target? with _ | name
  · rfl
  · dsimp only
    rw [h.position?_eq (htarget name hname), h.node?_eq (htarget name hname)]
    rcases g.position? name with _ | position
    · simp only [Option.map_none, h.propertyDiagnostic_eq hfile, Widening.name_move]
    · rcases g.node? name with _ | target
      · simp only [Option.map_some, Option.map_none, h.propertyDiagnostic_eq hfile, Widening.name_move]
      · simp only [Option.map_some, h.visibilityDiagnostics_eq hfile, h.binding?_eq hfile]

end Widens

theorem filter_flatMap_of_forall {α β : Type} {f : α → List β} {p : β → Bool} {q : α → Bool}
    (h : ∀ a, ∀ b ∈ f a, p b = q a) (items : List α) : (items.flatMap f).filter p = (items.filter q).flatMap f := by
  induction items with
  | nil => rfl
  | cons a rest ih =>
    rw [List.flatMap_cons, List.filter_append, List.filter_cons, ih]
    by_cases hq : q a = true
    · rw [if_pos hq, List.flatMap_cons, List.filter_eq_self.mpr fun b hb => (h a b hb).trans hq]
    · rw [if_neg hq, List.filter_eq_nil_iff.mpr fun b hb => (h a b hb) ▸ hq, List.nil_append]

theorem Widens.propertyPositions_eq (h : g.Widens w g') :
    g'.propertyPositions.filter (w.keeps ·.owner) = g.propertyPositions.map w.moveProperty := by
  have hkeeps : ∀ place : Node × Nat, ∀ position ∈
      (List.range place.1.properties.length).map (PropertyPosition.mk place.2),
      w.keeps position.owner = w.keeps place.2 := by
    intro place position hposition
    obtain ⟨i, -, rfl⟩ := List.mem_map.mp hposition
    rfl
  rw [propertyPositions, propertyPositions, List.map_flatMap]
  refine (filter_flatMap_of_forall hkeeps _).trans ?_
  rw [h.zipIdx_nodes, List.flatMap_map]
  refine List.flatMap_congr fun (node, owner) _ => ?_
  rw [List.map_map]
  rfl

theorem target?_bound (binding : KeyBinding) (p : Property) : (p.bound binding).target? = p.target? := by
  cases p with
  | «alias» p =>
    unfold Property.bound
    dsimp only
    split <;> rfl
  | _ => rfl

theorem eq_of_bound_eq_field {binding : KeyBinding} {p : Property} {field : Property.Field}
    (h : p.bound binding = .field field) : p = .field field := by
  have hfield : (p.bound binding).isField = true := h ▸ rfl
  rw [isField_bound] at hfield
  cases p with
  | field p => exact h
  | _ => cases hfield

theorem apart_bound {file : LoadedFile} {node : Node} (hnode : node.Apart file) {p : Spanned Property}
    (hp : p ∈ node.properties) (index : Nat) :
    Node.Apart file { node with
      properties := node.properties.set index { p with value := (g.boundProperty settings node p).1 } } where
  file := hnode.file
  name := hnode.name
  parent := hnode.parent
  target q hq name hname := by
    rcases List.mem_or_eq_of_mem_set hq with hq | rfl
    · exact hnode.target q hq name hname
    · refine hnode.target p hp name ?_
      rcases g.boundProperty_cases node p with heq | ⟨_, _, binding, -, heq⟩
      · exact heq ▸ hname
      · rw [← target?_bound binding, ← heq]
        exact hname
  domain q hq field hfield := by
    rcases List.mem_or_eq_of_mem_set hq with hq | rfl
    · exact hnode.domain q hq field hfield
    · refine hnode.domain p hp field ?_
      rcases g.boundProperty_cases node p with heq | ⟨_, _, binding, -, heq⟩
      · exact heq ▸ hfield
      · exact eq_of_bound_eq_field (heq ▸ hfield)

namespace Disregards

theorem bindProperty_kept (h : g.Disregards w g') (place : PropertyPosition) :
    (g.bindProperty settings place).1.Disregards w (g'.bindProperty settings (w.moveProperty place)).1
      ∧ besides w.file.id (g'.bindProperty settings (w.moveProperty place)).2 = (g.bindProperty settings place).2 := by
  have hat := h.getElem?_place place.owner
  rcases hnode : g.nodes[place.owner]? with _ | node
  · rw [hnode, Option.map_none] at hat
    simp only [bindProperty, hnode, Widening.moveProperty, hat]
    exact ⟨h, rfl⟩
  · rw [hnode, Option.map_some] at hat
    rcases hp : node.properties[place.index]? with _ | p
    · simp only [bindProperty, hnode, Widening.moveProperty, hat, Widening.properties_move, hp]
      exact ⟨h, rfl⟩
    · have hapart := h.apart node (List.mem_of_getElem? hnode)
      have hmem := List.mem_of_getElem? hp
      have hat' : g'.nodes[(w.moveProperty place).owner]? = some (w.move node) := hat
      rw [bindProperty_eq hnode hp, bindProperty_eq hat' hp, h.boundProperty_eq hapart.file (hapart.target p hmem)]
      exact ⟨h.set place.owner (apart_bound hapart hmem place.index),
        (g.refusals_boundProperty settings node p).besides_eq_self hapart.file⟩

theorem bindProperty_other (h : g.Disregards w g') {place : PropertyPosition} (hkeeps : w.keeps place.owner = false) :
    g.Disregards w (g'.bindProperty settings place).1 ∧ besides w.file.id (g'.bindProperty settings place).2 = [] := by
  rcases hnode : g'.nodes[place.owner]? with _ | node
  · simp only [bindProperty, hnode]
    exact ⟨h, rfl⟩
  · rcases hp : node.properties[place.index]? with _ | p
    · simp only [bindProperty, hnode, hp]
      exact ⟨h, rfl⟩
    · rw [bindProperty_eq hnode hp]
      exact ⟨⟨h.set_other hkeeps hnode rfl rfl, h.apart⟩,
        (g'.refusals_boundProperty settings node p).besides_eq_nil (h.other_at hkeeps hnode).1⟩

/-- **Binding foreign keys with one more file.** -/
theorem bindForeignKeys_eq (h : g.Disregards w g') :
    (g.bindForeignKeys settings).1.Disregards w (g'.bindForeignKeys settings).1
      ∧ besides w.file.id (g'.bindForeignKeys settings).2 = (g.bindForeignKeys settings).2 :=
  Diagnostic.besides_collect (Disregards w) h.propertyPositions_eq
    (fun place _ _ _ hstate => hstate.bindProperty_kept place)
    (fun _ _ hkeeps _ _ hstate => hstate.bindProperty_other hkeeps) h

end Disregards

end Graph

end EntityModel
