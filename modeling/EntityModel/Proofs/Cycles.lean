import EntityModel.Graph.Cycles
import Mathlib.Logic.Relation

/-!
# The search for cycles of enumerations

The queue of the search holds positions of one distance from the start, and behind them positions of the next
distance; all that are nearer have left it. So the first way back to the start that is found is a shortest one,
and when the queue is empty all that the start leads to has been left without one (`Searching`,
`cycleFrom?_answers`). The check then reports exactly the enumerations that refer to themselves
(`cycleDiagnostics_exact`).
-/

namespace EntityModel

open Relation (ReflTransGen TransGen)

/-! ### Ways -/

/-- A way from a start to a position, both ends included, each step of which is one of a relation. -/
inductive Way (leads : Nat → Nat → Prop) (start : Nat) : List Nat → Nat → Prop
  | start : Way leads start [start] start
  | step {way : List Nat} {a b : Nat} : Way leads start way a → leads a b → Way leads start (way ++ [b]) b

/-- A way of one or more steps back to its start, such that no other is shorter. -/
structure IsShortestCycle (leads : Nat → Nat → Prop) (start : Nat) (way : List Nat) : Prop where
  closed : Way leads start way start
  steps : 1 < way.length
  shortest : ∀ other, Way leads start other start → 1 < other.length → way.length ≤ other.length

variable {leads : Nat → Nat → Prop} {start : Nat}

theorem Way.length_pos {way : List Nat} {a : Nat} (h : Way leads start way a) : 0 < way.length := by
  cases h with
  | start => exact Nat.one_pos
  | step _ _ =>
    rw [List.length_append]
    exact Nat.lt_add_left _ Nat.one_pos

theorem Way.exists_step {way : List Nat} {b : Nat} (h : Way leads start way b) (hlong : 1 < way.length) :
    ∃ before a, Way leads start before a ∧ leads a b ∧ way.length = before.length + 1 := by
  cases h with
  | start => exact absurd hlong (Nat.lt_irrefl 1)
  | @step before a _ hbefore hstep => exact ⟨before, a, hbefore, hstep, List.length_append⟩

theorem Way.eq_start {way : List Nat} {a : Nat} (h : Way leads start way a) (hshort : way.length ≤ 1) :
    a = start := by
  cases h with
  | start => rfl
  | step hbefore _ =>
    have hpos := hbefore.length_pos
    rw [List.length_append, List.length_singleton] at hshort
    omega

theorem Way.reflTransGen {way : List Nat} {a : Nat} (h : Way leads start way a) :
    ReflTransGen leads start a := by
  induction h with
  | start => exact .refl
  | step _ hstep ih => exact ih.tail hstep

theorem exists_way {a : Nat} (h : ReflTransGen leads start a) : ∃ way, Way leads start way a := by
  induction h with
  | refl => exact ⟨[start], .start⟩
  | tail _ hstep ih =>
    obtain ⟨way, hway⟩ := ih
    exact ⟨way ++ [_], hway.step hstep⟩

theorem transGen_iff_exists_way :
    TransGen leads start start ↔ ∃ way, Way leads start way start ∧ 1 < way.length := by
  constructor
  · intro h
    obtain ⟨a, hreach, hstep⟩ := Relation.TransGen.tail'_iff.mp h
    obtain ⟨way, hway⟩ := exists_way hreach
    refine ⟨way ++ [start], hway.step hstep, ?_⟩
    rw [List.length_append, List.length_singleton]
    exact Nat.lt_add_of_pos_left hway.length_pos
  · rintro ⟨way, hway, hlong⟩
    obtain ⟨before, a, hbefore, hstep, -⟩ := hway.exists_step hlong
    exact Relation.TransGen.tail'_iff.mpr ⟨a, hbefore.reflTransGen, hstep⟩

/-! ### The trail of a search -/

namespace Trail

variable {trail : Trail} {source x : Nat} {targets : List Nat}

theorem pathTo_cons_self (trail : Trail) (x source : Nat) :
    pathTo ((x, source) :: trail) x = pathTo trail source ++ [x] := by
  rw [pathTo, if_pos rfl]

theorem pathTo_cons_of_ne {next : Nat} (hne : next ≠ x) :
    pathTo ((next, source) :: trail) x = pathTo trail x := by
  rw [pathTo, if_neg hne]

theorem enter_cons_of_mem {next : Nat} (h : next ∈ trail.reached) :
    enter source trail (next :: targets) = enter source trail targets := by
  rw [enter, if_pos (List.contains_iff_mem.mpr h)]

theorem enter_cons_of_not_mem {next : Nat} (h : next ∉ trail.reached) :
    enter source trail (next :: targets)
      = ((enter source ((next, source) :: trail) targets).1,
          next :: (enter source ((next, source) :: trail) targets).2) := by
  rw [enter, if_neg (mt List.contains_iff_mem.mp h)]

theorem mem_fresh_enter : x ∈ (enter source trail targets).2 ↔ x ∈ targets ∧ x ∉ trail.reached := by
  induction targets generalizing trail with
  | nil => simp [enter]
  | cons next rest ih =>
    by_cases hnext : next ∈ trail.reached
    · rw [enter_cons_of_mem hnext, ih]
      by_cases hx : x = next <;> simp [hx, hnext]
    · rw [enter_cons_of_not_mem hnext, List.mem_cons, ih, reached, List.map_cons, List.mem_cons, List.mem_cons]
      by_cases hx : x = next
      · simp only [hx, hnext, true_or, not_false_eq_true, and_self]
      · simp only [hx, false_or, reached]

theorem mem_reached_enter :
    x ∈ (enter source trail targets).1.reached ↔ x ∈ trail.reached ∨ x ∈ targets := by
  induction targets generalizing trail with
  | nil => simp [enter]
  | cons next rest ih =>
    by_cases hnext : next ∈ trail.reached
    · rw [enter_cons_of_mem hnext, ih]
      by_cases hx : x = next <;> simp [hx, hnext]
    · rw [enter_cons_of_not_mem hnext, ih]
      by_cases hx : x = next <;> simp [hx, reached]

theorem pathTo_enter_of_not_mem (hx : x ∉ (enter source trail targets).2) :
    (enter source trail targets).1.pathTo x = trail.pathTo x := by
  induction targets generalizing trail with
  | nil => rfl
  | cons next rest ih =>
    by_cases hnext : next ∈ trail.reached
    · rw [enter_cons_of_mem hnext] at hx ⊢
      exact ih hx
    · rw [enter_cons_of_not_mem hnext] at hx ⊢
      obtain ⟨hne, hrest⟩ := not_or.mp (mt List.mem_cons.mpr hx)
      rw [ih hrest, pathTo_cons_of_ne (Ne.symm hne)]

/-- The way to what is new leads by the source, which is not new itself. -/
theorem pathTo_enter_of_mem (hsource : source ∉ (enter source trail targets).2)
    (hx : x ∈ (enter source trail targets).2) :
    (enter source trail targets).1.pathTo x = trail.pathTo source ++ [x] := by
  induction targets generalizing trail with
  | nil => cases hx
  | cons next rest ih =>
    by_cases hnext : next ∈ trail.reached
    · rw [enter_cons_of_mem hnext] at hsource hx ⊢
      exact ih hsource hx
    · rw [enter_cons_of_not_mem hnext] at hsource hx ⊢
      obtain ⟨hne, hrest⟩ := not_or.mp (mt List.mem_cons.mpr hsource)
      rcases List.mem_cons.mp hx with rfl | hx
      · have hold : x ∉ (enter source ((x, source) :: trail) rest).2 := fun h =>
          (mem_fresh_enter.mp h).2 List.mem_cons_self
        rw [pathTo_enter_of_not_mem hold, pathTo_cons_self]
      · rw [ih hrest hx, pathTo_cons_of_ne (Ne.symm hne)]

end Trail

/-! ### The search -/

/-- What a list of targets for each position leads to from a position. -/
def Leads (edges : List (List Nat)) (a b : Nat) : Prop := ∃ targets, edges[a]? = some targets ∧ b ∈ targets

/-- The state of a search. The positions in `done` have left the queue; those that are in it are at a distance of
`depth` steps, the `near` ones, or of one more, the `far` ones. -/
structure Searching (edges : List (List Nat)) (start depth : Nat) (done near far : List Nat) (trail : Trail) :
    Prop where
  known : ∀ x, (x ∈ done ∨ x ∈ near ∨ x ∈ far) ↔ (x = start ∨ x ∈ trail.reached)
  unreached : start ∉ trail.reached
  left : ∀ x ∈ done, ∀ y, Leads edges x y → y ∈ trail.reached
  nearWay : ∀ x ∈ near, Way (Leads edges) start (trail.pathTo x) x ∧ (trail.pathTo x).length = depth + 1
  farWay : ∀ x ∈ far, Way (Leads edges) start (trail.pathTo x) x ∧ (trail.pathTo x).length = depth + 2
  nearer : ∀ way x, Way (Leads edges) start way x → way.length ≤ depth → x ∈ done
  level : ∀ way x, Way (Leads edges) start way x → way.length ≤ depth + 1 → x ∈ done ∨ x ∈ near

/-- What a search should answer: a shortest cycle, or that there is none. -/
def Answers (edges : List (List Nat)) (start : Nat) : Option (List Nat) → Prop
  | some way => IsShortestCycle (Leads edges) start way
  | none => ∀ way, Way (Leads edges) start way start → way.length ≤ 1

namespace Searching

variable {edges : List (List Nat)} {start depth current : Nat} {done near far queue targets : List Nat} {trail : Trail}

theorem begin (edges : List (List Nat)) (start : Nat) : Searching edges start 0 [] [start] [] [] where
  known x := by simp [Trail.reached]
  unreached := List.not_mem_nil
  left x hx := absurd hx List.not_mem_nil
  nearWay x hx := by
    obtain rfl := List.mem_singleton.mp hx
    exact ⟨.start, rfl⟩
  farWay x hx := absurd hx List.not_mem_nil
  nearer way x hway hshort := absurd hway.length_pos (Nat.not_lt_of_le hshort)
  level way x hway hshort := Or.inr (List.mem_singleton.mpr (hway.eq_start hshort))

theorem advance (h : Searching edges start depth done [] far trail) :
    Searching edges start (depth + 1) done far [] trail where
  known x := by simpa using h.known x
  unreached := h.unreached
  left := h.left
  nearWay := h.farWay
  farWay x hx := absurd hx List.not_mem_nil
  nearer way x hway hshort := (h.level way x hway hshort).resolve_right List.not_mem_nil
  level way x hway hshort := by
    by_cases hlong : 1 < way.length
    · obtain ⟨before, a, hbefore, hstep, hlength⟩ := hway.exists_step hlong
      have hdone : a ∈ done := (h.level before a hbefore (by omega)).resolve_right List.not_mem_nil
      have hx := (h.known x).mpr (Or.inr (h.left a hdone x hstep))
      exact hx.imp_right fun hx => hx.resolve_left List.not_mem_nil
    · have hdone := h.level way x hway (by omega)
      exact Or.inl (hdone.resolve_right List.not_mem_nil)

theorem exists_near (h : Searching edges start depth done near far trail) (hqueue : near ++ far = current :: queue) :
    ∃ depth near far, Searching edges start depth done (current :: near) far trail ∧ near ++ far = queue := by
  cases near with
  | nil =>
    rw [List.nil_append] at hqueue
    subst hqueue
    exact ⟨depth + 1, queue, [], h.advance, List.append_nil _⟩
  | cons first near =>
    rw [List.cons_append] at hqueue
    obtain ⟨rfl, hrest⟩ := List.cons.inj hqueue
    exact ⟨depth, near, far, h, hrest⟩

/-- A position that leads back to the start ends a shortest cycle. -/
theorem found (h : Searching edges start depth done (current :: near) far trail) (hstep : Leads edges current start) :
    IsShortestCycle (Leads edges) start (trail.pathTo current ++ [start]) := by
  obtain ⟨hway, hlength⟩ := h.nearWay current List.mem_cons_self
  refine ⟨hway.step hstep, ?_, fun other hother hlong => ?_⟩
  · rw [List.length_append, List.length_singleton]
    omega
  · obtain ⟨before, a, hbefore, hback, hcount⟩ := hother.exists_step hlong
    have hfar : ¬ before.length ≤ depth := fun hshort =>
      h.unreached (h.left a (h.nearer before a hbefore hshort) start hback)
    rw [List.length_append, List.length_singleton]
    omega

/-- A position that does not lead back to the start leaves the queue, and what it leads to has been reached. -/
theorem turn (h : Searching edges start depth done (current :: near) far trail)
    (htargets : ∀ y, Leads edges current y ↔ y ∈ targets) (hstart : start ∉ targets) :
    Searching edges start depth (current :: done) near (far ++ (trail.enter current targets).2)
      (trail.enter current targets).1 := by
  have hold : ∀ x, x = start ∨ x ∈ trail.reached → x ∉ (trail.enter current targets).2 := by
    rintro x hx hfresh
    obtain ⟨htarget, hnew⟩ := Trail.mem_fresh_enter.mp hfresh
    rcases hx with rfl | hx
    · exact hstart htarget
    · exact hnew hx
  have hkept : ∀ x, x ∈ done ∨ x ∈ current :: near ∨ x ∈ far →
      (trail.enter current targets).1.pathTo x = trail.pathTo x := fun x hx =>
    Trail.pathTo_enter_of_not_mem (hold x ((h.known x).mp hx))
  obtain ⟨hway, hlength⟩ := h.nearWay current List.mem_cons_self
  refine ⟨fun x => ?_, ?_, fun x hx y hy => ?_, fun x hx => ?_, fun x hx => ?_, fun way x hx hshort => ?_,
    fun way x hx hshort => ?_⟩
  · have hknown := h.known x
    simp only [List.mem_cons, List.mem_append, Trail.mem_fresh_enter, Trail.mem_reached_enter] at hknown ⊢
    grind
  · rw [Trail.mem_reached_enter]
    exact not_or.mpr ⟨h.unreached, hstart⟩
  · rw [Trail.mem_reached_enter]
    rcases List.mem_cons.mp hx with rfl | hx
    · exact Or.inr ((htargets y).mp hy)
    · exact Or.inl (h.left x hx y hy)
  · rw [hkept x (Or.inr (Or.inl (List.mem_cons_of_mem _ hx)))]
    exact h.nearWay x (List.mem_cons_of_mem _ hx)
  · rcases List.mem_append.mp hx with hx | hx
    · rw [hkept x (Or.inr (Or.inr hx))]
      exact h.farWay x hx
    · have hcurrent := hold current ((h.known current).mp (Or.inr (Or.inl List.mem_cons_self)))
      rw [Trail.pathTo_enter_of_mem hcurrent hx, List.length_append, List.length_singleton, hlength]
      exact ⟨hway.step ((htargets x).mpr (Trail.mem_fresh_enter.mp hx).1), rfl⟩
  · exact List.mem_cons_of_mem _ (h.nearer way x hx hshort)
  · rcases h.level way x hx hshort with hdone | hnear
    · exact Or.inl (List.mem_cons_of_mem _ hdone)
    · rcases List.mem_cons.mp hnear with rfl | hnear
      · exact Or.inl List.mem_cons_self
      · exact Or.inr hnear

/-- When the queue is empty, no way leads back to the start. -/
theorem finished (h : Searching edges start depth done [] [] trail) : Answers edges start none := by
  have hdone : ∀ x, x = start ∨ x ∈ trail.reached → x ∈ done := by
    intro x hx
    simpa using (h.known x).mpr hx
  have hways : ∀ way x, Way (Leads edges) start way x → x ∈ done := by
    intro way x hway
    induction hway with
    | start => exact hdone start (Or.inl rfl)
    | step _ hstep ih => exact hdone _ (Or.inr (h.left _ ih _ hstep))
  intro way hway
  refine Nat.le_of_not_lt fun hlong => ?_
  obtain ⟨before, a, hbefore, hstep, -⟩ := hway.exists_step hlong
  exact h.unreached (h.left a (hways before a hbefore) start hstep)

theorem answers (h : Searching edges start depth done near far trail) (hqueue : near ++ far = queue) :
    Answers edges start (trail.search edges start queue) := by
  -- by the turns of the search: in each the head of the queue is near, and leaves the queue or ends a cycle
  fun_induction Trail.search edges start trail queue generalizing depth done near far with
  | case1 trail =>
    obtain ⟨rfl, rfl⟩ := List.append_eq_nil_iff.mp hqueue
    exact h.finished
  | case2 trail current queue hnone ih =>
    obtain ⟨depth, near, far, h, hqueue⟩ := h.exists_near hqueue
    have htargets : ∀ y, Leads edges current y ↔ y ∈ [] := by
      simp [Leads, hnone]
    refine ih (h.turn htargets List.not_mem_nil) ?_
    rw [Trail.enter, List.append_nil, hqueue]
  | case3 trail current queue targets hsome hback =>
    obtain ⟨depth, near, far, h, hqueue⟩ := h.exists_near hqueue
    exact h.found ⟨targets, hsome, List.contains_iff_mem.mp hback⟩
  | case4 trail current queue targets hsome hback _ ih =>
    obtain ⟨depth, near, far, h, hqueue⟩ := h.exists_near hqueue
    have htargets : ∀ y, Leads edges current y ↔ y ∈ targets := by
      simp [Leads, hsome]
    refine ih (h.turn htargets (mt List.contains_iff_mem.mpr hback)) ?_
    rw [← List.append_assoc, hqueue]

end Searching

/-- **The search finds a shortest cycle if there is one.** -/
theorem cycleFrom?_answers (edges : List (List Nat)) (start : Nat) :
    Answers edges start (cycleFrom? edges start) :=
  (Searching.begin edges start).answers rfl

/-! ### The check -/

namespace Graph

/-- An enumeration leads to another, by an association or by an alias with a linked class. -/
def EnumerationEdge (g : Graph) (a b : Nat) : Prop :=
  g.isEnumeration a = true ∧ g.isEnumeration b = true
    ∧ ∃ node, g.nodes[a]? = some node ∧ ∃ p ∈ node.properties, ∃ name, p.value.linkedClass = some name
      ∧ g.position? name = some b

variable {g : Graph}

theorem mem_enumerationTargets {a b : Nat} : b ∈ g.enumerationTargets a ↔ g.EnumerationEdge a b := by
  unfold enumerationTargets EnumerationEdge
  rcases hnode : g.nodes[a]? with _ | node
  · simp
  · by_cases ha : g.isEnumeration a = true
    · simp only [ha, if_true, List.mem_eraseDups, List.mem_filter, List.mem_filterMap, Option.bind_eq_some_iff,
        true_and, Option.some.injEq, exists_eq_left', and_comm]
    · simp [ha]

theorem exists_node_of_isEnumeration {position : Nat} (h : g.isEnumeration position = true) :
    ∃ node, g.nodes[position]? = some node := by
  rw [isEnumeration, beq_iff_eq] at h
  obtain ⟨node, hnode, -⟩ := Option.bind_eq_some_iff.mp h
  exact ⟨node, hnode⟩

theorem exists_classes {start a : Nat} {way : List Nat} (hstart : g.isEnumeration start = true)
    (h : Way g.EnumerationEdge start way a) : ∃ classes : List Node, way.map (g.nodes[·]?) = classes.map some := by
  induction h with
  | start =>
    obtain ⟨node, hnode⟩ := exists_node_of_isEnumeration hstart
    exact ⟨[node], congrArg (fun found => [found]) hnode⟩
  | step _ hstep ih =>
    obtain ⟨classes, hclasses⟩ := ih
    obtain ⟨node, hnode⟩ := exists_node_of_isEnumeration hstep.2.1
    exact ⟨classes ++ [node], by rw [List.map_append, List.map_append, hclasses, List.map_singleton, hnode]; rfl⟩

theorem wayText_eq {way : List Nat} {classes : List Node} (h : way.map (g.nodes[·]?) = classes.map some) :
    g.wayText way = String.intercalate " -> " (classes.map Node.name) := by
  have hnames := congrArg (List.map fun found : Option Node => (found.map Node.name).getD "") h
  rw [List.map_map, List.map_map] at hnames
  exact congrArg _ hnames

/-- The report of an enumeration that refers to itself stands at the name of its class, and names the classes of a
shortest way back to it. -/
theorem cycleDiagnostic_eq {position : Nat} {way : List Nat} (h : IsShortestCycle g.EnumerationEdge position way)
    (node : Node) : ∃ classes : List Node, way.map (g.nodes[·]?) = classes.map some
      ∧ g.cycleDiagnostic node way = {
          kind := .referenceCycle
          message := s!"fixed enumeration '{node.name}' ({node.file.text}) references itself: "
            ++ String.intercalate " -> " (classes.map Node.name)
          file := node.file
          klass := some node.name
          location := g.locate node.file node.declared.name.span } := by
  obtain ⟨_, _, _, hstep, _⟩ := h.closed.exists_step h.steps
  obtain ⟨classes, hclasses⟩ := exists_classes hstep.2.1 h.closed
  refine ⟨classes, hclasses, ?_⟩
  rw [cycleDiagnostic, diagnostic, wayText_eq hclasses]
  rfl

theorem leads_enumerationEdges : Leads g.enumerationEdges = g.EnumerationEdge := by
  funext a b
  refine propext ?_
  unfold Leads enumerationEdges
  rw [← mem_enumerationTargets, List.getElem?_map]
  constructor
  · rintro ⟨targets, htargets, hb⟩
    obtain ⟨position, hposition, rfl⟩ := Option.map_eq_some_iff.mp htargets
    obtain ⟨_, hsame⟩ := List.getElem?_eq_some_iff.mp hposition
    rw [List.getElem_range] at hsame
    exact hsame ▸ hb
  · intro hb
    obtain ⟨-, -, node, hnode, -⟩ := mem_enumerationTargets.mp hb
    have hlt := (List.getElem?_eq_some_iff.mp hnode).1
    exact ⟨g.enumerationTargets a, by rw [List.getElem?_range hlt, Option.map_some], hb⟩

theorem cycleFrom?_cases (g : Graph) (position : Nat) :
    (∃ way, cycleFrom? g.enumerationEdges position = some way ∧ IsShortestCycle g.EnumerationEdge position way
      ∧ g.isEnumeration position = true ∧ TransGen g.EnumerationEdge position position)
    ∨ cycleFrom? g.enumerationEdges position = none ∧ ¬ TransGen g.EnumerationEdge position position := by
  have hanswers := cycleFrom?_answers g.enumerationEdges position
  rcases hfound : cycleFrom? g.enumerationEdges position with _ | way
  · rw [hfound, Answers, leads_enumerationEdges] at hanswers
    refine Or.inr ⟨rfl, fun hcycle => ?_⟩
    obtain ⟨way, hway, hlong⟩ := transGen_iff_exists_way.mp hcycle
    exact absurd hlong (Nat.not_lt_of_le (hanswers way hway))
  · rw [hfound, Answers, leads_enumerationEdges] at hanswers
    have hcycle := transGen_iff_exists_way.mpr ⟨way, hanswers.closed, hanswers.steps⟩
    obtain ⟨next, hstep, -⟩ := Relation.TransGen.head'_iff.mp hcycle
    exact Or.inl ⟨way, rfl, hanswers, hstep.1, hcycle⟩

open Classical in
/-- **The check reports the enumerations that refer to themselves**, directly or by way of others, one after the
other in the order of the classes, and each with a shortest way back to itself. -/
theorem cycleDiagnostics_exact (g : Graph) :
    ∃ wayFrom : Nat → List Nat,
      g.cycleDiagnostics
          = (g.nodes.zipIdx.filter fun place => TransGen g.EnumerationEdge place.2 place.2).map
            (fun place => g.cycleDiagnostic place.1 (wayFrom place.2))
        ∧ ∀ position, TransGen g.EnumerationEdge position position →
          IsShortestCycle g.EnumerationEdge position (wayFrom position) := by
  refine ⟨fun position => (cycleFrom? g.enumerationEdges position).getD [], ?_, fun position hcycle => ?_⟩
  · rw [← List.filterMap_eq_map, List.filterMap_filter, cycleDiagnostics]
    congr 1
    funext place
    rcases g.cycleFrom?_cases place.2 with ⟨way, hfound, -, henumeration, hcycle⟩ | ⟨hfound, hnone⟩
    · simp only [hfound, henumeration, hcycle, decide_true, if_true, Option.map_some, Option.getD_some,
        Function.comp_apply]
    · simp only [hfound, hnone, decide_false, Bool.false_eq_true, if_false, Option.map_none, ite_self]
  · rcases g.cycleFrom?_cases position with ⟨way, hfound, hway, -⟩ | ⟨-, hnone⟩
    · dsimp only
      rw [hfound, Option.getD_some]
      exact hway
    · exact absurd hcycle hnone

end Graph

end EntityModel
