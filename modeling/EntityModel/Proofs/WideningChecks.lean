import EntityModel.Proofs.WideningStages

/-!
# Checking with one more file

Each check finds the same for a class that is kept in both graphs, as all that it looks up is the same. Only the
search for cycles goes by positions; the positions that it reaches are those it has reached, moved along
(`Trail.search_move`, `checkDiagnostics_eq`).
-/

namespace EntityModel

open Diagnostic (besides)

/-! ### Searches -/

namespace Trail

/-- A trail with its positions moved. -/
def move (place : Nat → Nat) (trail : Trail) : Trail := List.map (Prod.map place place) trail

variable {place : Nat → Nat} (hplace : Function.Injective place)

theorem reached_move (trail : Trail) : (trail.move place).reached = trail.reached.map place := by
  rw [reached, reached, move, List.map_map, List.map_map]
  rfl

include hplace

theorem pathTo_move (trail : Trail) (x : Nat) : (trail.move place).pathTo (place x) = (trail.pathTo x).map place := by
  induction trail generalizing x with
  | nil => rfl
  | cons step trail ih =>
    obtain ⟨next, source⟩ := step
    rw [move, List.map_cons, Prod.map_apply]
    by_cases hnext : next = x
    · subst hnext
      rw [pathTo_cons_self, pathTo_cons_self, List.map_append, List.map_singleton, ← ih source]
      rfl
    · rw [pathTo_cons_of_ne hnext, pathTo_cons_of_ne (mt (@hplace next x) hnext)]
      exact ih x

theorem mem_reached_move {trail : Trail} {x : Nat} : place x ∈ (trail.move place).reached ↔ x ∈ trail.reached := by
  rw [reached_move, List.mem_map_of_injective hplace]

theorem enter_move (source : Nat) (trail : Trail) (targets : List Nat) :
    enter (place source) (trail.move place) (targets.map place)
      = ((enter source trail targets).1.move place, (enter source trail targets).2.map place) := by
  induction targets generalizing trail with
  | nil => rfl
  | cons next rest ih =>
    rw [List.map_cons]
    by_cases hnext : next ∈ trail.reached
    · rw [enter_cons_of_mem hnext, enter_cons_of_mem ((mem_reached_move hplace).mpr hnext), ih]
    · rw [enter_cons_of_not_mem hnext, enter_cons_of_not_mem (mt (mem_reached_move hplace).mp hnext)]
      have hrest := ih ((next, source) :: trail)
      rw [move, List.map_cons, Prod.map_apply] at hrest
      rw [move, hrest]
      rfl

/-- **A search among positions that are moved** goes the same way. -/
theorem search_move {edges edges' : List (List Nat)}
    (hedges : ∀ i, edges'[place i]? = edges[i]?.map (List.map place)) (start : Nat) (trail : Trail) (queue : List Nat) :
    search edges' (place start) (trail.move place) (queue.map place)
      = (search edges start trail queue).map (List.map place) := by
  fun_induction Trail.search edges start trail queue with
  | case1 trail => rw [List.map_nil, search, Option.map_none]
  | case2 trail current queue hnone ih =>
    have hnone' : edges'[place current]? = none := by rw [hedges, hnone, Option.map_none]
    rw [List.map_cons, search]
    split
    · exact ih
    · next hsome => rw [hnone'] at hsome; cases hsome
  | case3 trail current queue targets hsome hback =>
    have hsome' : edges'[place current]? = some (targets.map place) := by rw [hedges, hsome, Option.map_some]
    have hback' : place start ∈ targets.map place := List.mem_map_of_mem (List.contains_iff_mem.mp hback)
    rw [List.map_cons, search]
    split
    · next hnone => rw [hsome'] at hnone; cases hnone
    · next targets' hfound =>
      obtain rfl := Option.some.inj (hsome'.symm.trans hfound)
      rw [if_pos (List.contains_iff_mem.mpr hback'), pathTo_move hplace, Option.map_some, List.map_append,
        List.map_singleton]
  | case4 trail current queue targets hsome hback _ ih =>
    have hsome' : edges'[place current]? = some (targets.map place) := by rw [hedges, hsome, Option.map_some]
    have hback' : place start ∉ targets.map place := by
      rw [List.mem_map_of_injective hplace]
      exact mt List.contains_iff_mem.mpr hback
    rw [List.map_cons, search]
    split
    · next hnone => rw [hsome'] at hnone; cases hnone
    · next targets' hfound =>
      obtain rfl := Option.some.inj (hsome'.symm.trans hfound)
      rw [if_neg (mt List.contains_iff_mem.mp hback'), enter_move hplace, ← List.map_append]
      exact ih

end Trail

theorem eraseDups_map_of_injective {place : Nat → Nat} (hplace : Function.Injective place) (items : List Nat) :
    (items.map place).eraseDups = items.eraseDups.map place := by
  obtain ⟨n, hn⟩ : ∃ n, items.length = n := ⟨_, rfl⟩
  induction n using Nat.strongRecOn generalizing items with
  | ind n ih =>
    cases items with
    | nil => rfl
    | cons a rest =>
      have hlt : (rest.filter fun b => !b == a).length < n :=
        hn ▸ Nat.lt_succ_of_le (List.length_filter_le _ _)
      have hfilter : (rest.map place).filter (fun b => !b == place a)
          = (rest.filter fun b => !b == a).map place := by
        rw [List.filter_map]
        congr 2
        funext b
        rw [Function.comp_apply, Bool.eq_iff_iff]
        simp [hplace.eq_iff]
      rw [List.map_cons, List.eraseDups_cons, List.eraseDups_cons, List.map_cons, hfilter, ih _ hlt _ rfl]

namespace Graph

variable {settings : Settings} {w : Widening} {g g' : Graph}

/-! ### Cycles -/

namespace Widens

variable (h : g.Widens w g')
include h

theorem isEnumeration_eq (i : Nat) : g'.isEnumeration (w.place i) = g.isEnumeration i := by
  rw [isEnumeration, isEnumeration, h.getElem?_place]
  rcases g.nodes[i]? with _ | node <;> rfl

theorem lt_length_iff {i : Nat} : w.place i < g'.nodes.length ↔ i < g.nodes.length := by
  have hsome := congrArg Option.isSome (h.getElem?_place i)
  rw [Option.isSome_map, Bool.eq_iff_iff] at hsome
  simpa using hsome

theorem wayText_eq (way : List Nat) : g'.wayText (way.map w.place) = g.wayText way := by
  rw [wayText, wayText, List.map_map]
  congr 1
  refine List.map_congr_left fun i _ => ?_
  rw [Function.comp_apply, h.name_at]

end Widens

namespace Disregards

variable (h : g.Disregards w g')
include h

theorem enumerationTargets_eq (i : Nat) :
    g'.enumerationTargets (w.place i) = (g.enumerationTargets i).map w.place := by
  unfold enumerationTargets
  rw [h.getElem?_place, h.isEnumeration_eq]
  rcases hnode : g.nodes[i]? with _ | node
  · rfl
  · rw [Option.map_some]
    dsimp only
    split
    · have hapart := h.apart node (List.mem_of_getElem? hnode)
      have htargets : (w.move node).properties.filterMap (·.value.linkedClass.bind g'.position?)
          = (node.properties.filterMap (·.value.linkedClass.bind g.position?)).map w.place := by
        rw [Widening.properties_move, List.map_filterMap]
        refine List.filterMap_congr fun p hp => ?_
        rcases hlink : p.value.linkedClass with _ | name
        · rfl
        · have htarget : p.value.target? = some name := by
            rcases hvalue : p.value with _ | _ | _ | _
            all_goals
              rw [hvalue] at hlink
              first | exact hlink | cases hlink
          exact h.position?_eq (hapart.target p hp name htarget)
      rw [htargets, List.filter_map, eraseDups_map_of_injective w.place_injective]
      congr 3
      funext i
      exact h.isEnumeration_eq i
    · rfl

theorem enumerationEdges_eq (i : Nat) :
    g'.enumerationEdges[w.place i]? = g.enumerationEdges[i]?.map (List.map w.place) := by
  rw [enumerationEdges, enumerationEdges, List.getElem?_map, List.getElem?_map]
  by_cases hi : i < g.nodes.length
  · rw [List.getElem?_range hi, List.getElem?_range (h.lt_length_iff.mpr hi), Option.map_some, Option.map_some,
      Option.map_some, h.enumerationTargets_eq]
  · have hnone : (List.range g.nodes.length)[i]? = none := by
      rw [List.getElem?_eq_none_iff, List.length_range]
      omega
    have hnone' : (List.range g'.nodes.length)[w.place i]? = none := by
      rw [List.getElem?_eq_none_iff, List.length_range]
      exact Nat.le_of_not_lt (mt h.lt_length_iff.mp hi)
    rw [hnone, hnone']
    rfl

theorem cycleFrom?_eq (i : Nat) :
    cycleFrom? g'.enumerationEdges (w.place i) = (cycleFrom? g.enumerationEdges i).map (List.map w.place) :=
  Trail.search_move w.place_injective h.enumerationEdges_eq i [] [i]

theorem cycleDiagnostics_eq : besides w.file.id g'.cycleDiagnostics = g.cycleDiagnostics := by
  unfold cycleDiagnostics
  dsimp only
  rw [List.filterMap_eq_flatMap_toList, List.filterMap_eq_flatMap_toList]
  refine Diagnostic.besides_flatMap h.zipIdx_nodes (fun (node, i) hnode => ?_) fun (node, i) hnode hkeeps => ?_
  · have hfile := (h.apart node (List.fst_mem_of_mem_zipIdx hnode)).file
    dsimp only
    rw [h.isEnumeration_eq, h.cycleFrom?_eq]
    split
    · rcases cycleFrom? g.enumerationEdges i with _ | way
      · rfl
      · have hsame : g'.cycleDiagnostic (w.move node) (way.map w.place) = g.cycleDiagnostic node way := by
          rw [cycleDiagnostic, cycleDiagnostic, h.wayText_eq, Widening.name_move, Widening.file_move,
            Widening.declared_move, h.diagnostic_eq hfile]
        rw [Option.map_some, Option.map_some, Option.map_some, hsame]
        exact (g.refusals_cycleDiagnostic node way).besides_eq_self hfile
    · rfl
  · have hfile := (h.other_at hkeeps (List.mem_zipIdx_iff_getElem?.mp hnode)).1
    dsimp only
    split
    · rcases cycleFrom? g'.enumerationEdges i with _ | way
      · rfl
      · exact (g'.refusals_cycleDiagnostic node way).besides_eq_nil hfile
    · rfl

end Disregards

/-! ### Properties -/

namespace Widens

variable (h : g.Widens w g') {node : Node} (hfile : node.file ≠ w.file.id)
include h hfile

theorem nameDiagnostics_eq : g'.nameDiagnostics (w.move node) = g.nameDiagnostics node := by
  simp only [nameDiagnostics, Widening.properties_move, h.propertyDiagnostic_eq hfile, Widening.name_move]

theorem domainDiagnostics_eq {p : Spanned Property}
    (hdomain : ∀ field, p.value = .field field → field.domain ∉ w.file.domainNames) :
    g'.domainDiagnostics settings (w.move node) p = g.domainDiagnostics settings node p := by
  unfold domainDiagnostics
  rcases hvalue : p.value with field | _ | _ | _
  · simp only [h.domain?_eq (hdomain field hvalue), h.propertyDiagnostic_eq hfile, Widening.name_move,
      Widening.declared_move]
  all_goals rfl

theorem labelDiagnostics_eq : g'.labelDiagnostics (w.move node) = g.labelDiagnostics node := by
  unfold labelDiagnostics
  rw [Widening.declared_move]
  rcases node.declared.label with _ | ⟨name, span⟩
  · rfl
  · dsimp only
    rw [h.fieldDiagnostic_eq hfile, Widening.name_move]
    rfl

/-! ### Keys -/

theorem keyDiagnostics_eq : g'.keyDiagnostics (w.move node) = g.keyDiagnostics node := by
  unfold keyDiagnostics
  rw [Widening.properties_move, h.inheritedKey?_eq]
  generalize node.properties.filter _ = own
  rcases own with _ | ⟨own, _ | ⟨second, rest⟩⟩
  all_goals
    rcases g.inheritedKey? node with _ | ⟨position, key⟩
    all_goals
      simp only [Option.map_none, Option.map_some, Prod.map_apply, h.name_at, h.propertyDiagnostic_eq hfile,
        h.diagnostic_eq hfile, Widening.name_move, Widening.declared_move]

/-! ### Rows -/

theorem rowDiagnosticsAfter_eq (key : Option Property) (earlier rows : List Declaration.Row) :
    g'.rowDiagnosticsAfter settings (w.move node) key earlier rows
      = g.rowDiagnosticsAfter settings node key earlier rows := by
  induction rows generalizing earlier with
  | nil => rfl
  | cons row rows ih =>
    have hrepeated : g'.repeatedRowDiagnostics (w.move node) earlier row
        = g.repeatedRowDiagnostics node earlier row := by
      simp only [repeatedRowDiagnostics, h.diagnostic_eq hfile, Widening.name_move]
    have hmissing : g'.missingValueDiagnostics settings (w.move node) row
        = g.missingValueDiagnostics settings node row := by
      simp only [missingValueDiagnostics, Widening.properties_move, h.fieldDiagnostic_eq hfile, Widening.name_move]
    have hunknown : g'.unknownFieldDiagnostics (w.move node) row = g.unknownFieldDiagnostics node row := by
      simp only [unknownFieldDiagnostics, Node.property?, Widening.toClass_move, h.fieldDiagnostic_eq hfile,
        Widening.name_move]
    have hkey : g'.repeatedKeyDiagnostics (w.move node) key earlier row
        = g.repeatedKeyDiagnostics node key earlier row := by
      simp only [repeatedKeyDiagnostics, h.diagnostic_eq hfile, Widening.name_move]
    rw [rowDiagnosticsAfter, rowDiagnosticsAfter, hrepeated, hmissing, hunknown, hkey, ih]

omit hfile in
theorem rowKey?_eq (i : Nat) : g'.rowKey? (w.place i) = g.rowKey? i := by
  rw [rowKey?, rowKey?, h.getElem?_place]
  rcases g.nodes[i]? with _ | node
  · rfl
  · simp only [Option.map_some, Option.bind_some, Widening.toClass_move, Node.property?, h.map_snd_primaryKey?]

theorem classRowDiagnostics_eq (i : Nat) :
    g'.classRowDiagnostics settings (w.move node, w.place i) = g.classRowDiagnostics settings (node, i) := by
  simp only [classRowDiagnostics, Widening.declared_move, Widening.toClass_move, h.rowKey?_eq,
    h.rowDiagnosticsAfter_eq hfile, h.diagnostic_eq hfile, Widening.name_move]

end Widens

/-! ### All checks -/

namespace Disregards

variable (h : g.Disregards w g')
include h

theorem propertyDiagnostics_eq :
    besides w.file.id (g'.propertyDiagnostics settings) = g.propertyDiagnostics settings := by
  have habout (g : Graph) (node : Node) : ∀ d ∈ g.nameDiagnostics node
      ++ node.properties.flatMap (domainDiagnostics settings g node) ++ g.labelDiagnostics node, d.About node := by
    intro d hd
    rcases List.mem_append.mp hd with hd | hd
    · rcases List.mem_append.mp hd with hd | hd
      · exact (g.refusals_nameDiagnostics node d hd).1
      · obtain ⟨p, -, hd⟩ := List.mem_flatMap.mp hd
        exact about_of_mem_domainDiagnostics settings g node hd
    · exact (g.refusals_labelDiagnostics node d hd).1
  refine h.besides_flatMap (fun node hnode => (h.apart node hnode).file) (fun node hnode => ?_) fun node hfile => ?_
  · have hapart := h.apart node hnode
    have hdomains : (w.move node).properties.flatMap (domainDiagnostics settings g' (w.move node))
        = node.properties.flatMap (domainDiagnostics settings g node) :=
      List.flatMap_congr fun p hp => h.domainDiagnostics_eq hapart.file (hapart.domain p hp)
    rw [h.nameDiagnostics_eq hapart.file, hdomains, h.labelDiagnostics_eq hapart.file]
    exact Diagnostic.besides_eq_self fun d hd => (habout g node d hd).file ▸ hapart.file
  · exact Diagnostic.besides_eq_nil fun d hd => (habout g' node d hd).file.trans hfile

theorem primaryKeyDiagnostics_eq : besides w.file.id g'.primaryKeyDiagnostics = g.primaryKeyDiagnostics := by
  refine h.besides_flatMap (fun node hnode => (h.apart node hnode).file) (fun node hnode => ?_) fun node hfile => ?_
  · rw [h.keyDiagnostics_eq (h.apart node hnode).file]
    exact (g.refusals_keyDiagnostics node).besides_eq_self (h.apart node hnode).file
  · exact (g'.refusals_keyDiagnostics node).besides_eq_nil hfile

theorem rowDiagnostics_eq : besides w.file.id (g'.rowDiagnostics settings) = g.rowDiagnostics settings := by
  refine Diagnostic.besides_flatMap h.zipIdx_nodes (fun (node, i) hnode => ?_) fun (node, i) hnode hkeeps => ?_
  · have hfile := (h.apart node (List.fst_mem_of_mem_zipIdx hnode)).file
    rw [h.classRowDiagnostics_eq hfile]
    exact (refusals_classRowDiagnostics settings g (node, i)).besides_eq_self hfile
  · have hfile := (h.other_at hkeeps (List.mem_zipIdx_iff_getElem?.mp hnode)).1
    exact (refusals_classRowDiagnostics settings g' (node, i)).besides_eq_nil hfile

/-- **Checking with one more file.** -/
theorem checkDiagnostics_eq : besides w.file.id (g'.checkDiagnostics settings) = g.checkDiagnostics settings := by
  rw [checkDiagnostics, checkDiagnostics, Diagnostic.besides_append, Diagnostic.besides_append,
    Diagnostic.besides_append, h.propertyDiagnostics_eq, h.primaryKeyDiagnostics_eq, h.cycleDiagnostics_eq,
    h.rowDiagnostics_eq]

end Disregards

end Graph

end EntityModel
