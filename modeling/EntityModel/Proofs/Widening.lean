import EntityModel.Proofs.Cycles
import EntityModel.Proofs.Problems
import EntityModel.Proofs.Published

/-!
# A graph with the classes of one more file

A file more puts its classes somewhere among those of a graph, and moves the positions of all that come behind
them (`Widening`, `Graph.Widens`). What is looked up for a class that does not name what the file declares is what
it has been, moved along: the classes it names, the files it sees, its domains and its primary key.
-/

namespace EntityModel

/-! ### Problems outside a file -/

namespace Diagnostic

/-- The problems that are not in a file. -/
def besides (file : FileId) (ds : List Diagnostic) : List Diagnostic := ds.filter (·.file ≠ file)

variable {file : FileId}

@[simp] theorem besides_append (first last : List Diagnostic) :
    besides file (first ++ last) = besides file first ++ besides file last :=
  List.filter_append first last

theorem besides_eq_self {ds : List Diagnostic} (h : ∀ d ∈ ds, d.file ≠ file) : besides file ds = ds :=
  List.filter_eq_self.mpr fun d hd => decide_eq_true (h d hd)

theorem besides_eq_nil {ds : List Diagnostic} (h : ∀ d ∈ ds, d.file = file) : besides file ds = [] :=
  List.filter_eq_nil_iff.mpr fun d hd => by simpa using h d hd

/-- Steps of two runs, where one run has more of them: if the others find problems of a file only and keep how the
states of the runs stand to each other, then outside the file both find the same. -/
theorem besides_collect {σ τ α β : Type} {step : σ → α → σ × List Diagnostic} {step' : τ → β → τ × List Diagnostic}
    (R : σ → τ → Prop) {keeps : β → Bool} {move : α → β} {items : List α} {items' : List β}
    (hitems : items'.filter keeps = items.map move)
    (hkept : ∀ item ∈ items, ∀ s t, R s t → R (step s item).1 (step' t (move item)).1
      ∧ besides file (step' t (move item)).2 = (step s item).2)
    (hother : ∀ item ∈ items', keeps item = false → ∀ s t, R s t → R s (step' t item).1
      ∧ besides file (step' t item).2 = []) {s : σ} {t : τ} (hstart : R s t) :
    R (collect step s items).1 (collect step' t items').1
      ∧ besides file (collect step' t items').2 = (collect step s items).2 := by
  induction items' generalizing items s t with
  | nil =>
    obtain rfl : items = [] := List.map_eq_nil_iff.mp hitems.symm
    exact ⟨hstart, rfl⟩
  | cons item' rest' ih =>
    have hrest : ∀ item ∈ rest', keeps item = false → ∀ s t, R s t → R s (step' t item).1
        ∧ besides file (step' t item).2 = [] := fun item hitem => hother item (List.mem_cons_of_mem _ hitem)
    rw [List.filter_cons] at hitems
    split at hitems
    · obtain ⟨item, rest, rfl, rfl, hrest'⟩ := List.map_eq_cons_iff.mp hitems.symm
      obtain ⟨hnext, hfound⟩ := hkept item List.mem_cons_self s t hstart
      obtain ⟨hend, hlater⟩ := ih hrest'.symm (fun i hi => hkept i (List.mem_cons_of_mem _ hi)) hrest hnext
      exact ⟨hend, by rw [collect, collect, besides_append, hfound, hlater]⟩
    · next hkeeps =>
      obtain ⟨hnext, hfound⟩ := hother item' List.mem_cons_self (Bool.eq_false_iff.mpr hkeeps) s t hstart
      obtain ⟨hend, hlater⟩ := ih hitems hkept hrest hnext
      exact ⟨hend, by rw [collect, besides_append, hfound, hlater, List.nil_append]⟩

theorem besides_collect_same {σ τ α : Type} {step : σ → α → σ × List Diagnostic} {step' : τ → α → τ × List Diagnostic}
    (R : σ → τ → Prop) {items : List α}
    (hstep : ∀ item ∈ items, ∀ s t, R s t → R (step s item).1 (step' t item).1
      ∧ besides file (step' t item).2 = (step s item).2) {s : σ} {t : τ} (hstart : R s t) :
    R (collect step s items).1 (collect step' t items).1
      ∧ besides file (collect step' t items).2 = (collect step s items).2 := by
  have hitems : items.filter (fun _ => true) = items.map id := by rw [List.filter_true, List.map_id]
  exact besides_collect R hitems hstep (fun _ _ hfalse => absurd hfalse Bool.true_eq_false_eq_False) hstart

theorem besides_collect_other {σ α : Type} {step : σ → α → σ × List Diagnostic} (holds : σ → Prop) {items : List α}
    (hstep : ∀ item ∈ items, ∀ s, holds s → holds (step s item).1 ∧ besides file (step s item).2 = []) {s : σ}
    (hstart : holds s) : holds (collect step s items).1 ∧ besides file (collect step s items).2 = [] := by
  have hitems : items.filter (fun _ => false) = ([] : List α).map id := by rw [List.filter_false, List.map_nil]
  exact @besides_collect file Unit σ α α (fun _ _ => ((), [])) step (fun _ s => holds s) (fun _ => false) id [] items
    hitems (fun _ h => absurd h List.not_mem_nil) (fun item hitem _ _ s hs => hstep item hitem s hs) () s hstart

theorem besides_flatMap {α β : Type} {f : α → List Diagnostic} {f' : β → List Diagnostic} {keeps : β → Bool}
    {move : α → β} {items : List α} {items' : List β} (hitems : items'.filter keeps = items.map move)
    (hkept : ∀ item ∈ items, besides file (f' (move item)) = f item)
    (hother : ∀ item ∈ items', keeps item = false → besides file (f' item) = []) :
    besides file (items'.flatMap f') = items.flatMap f := by
  have hcollect {γ : Type} (h : γ → List Diagnostic) (list : List γ) :
      (collect (fun (state : Unit) item => (state, h item)) () list).2 = list.flatMap h := by
    induction list with
    | nil => rfl
    | cons item rest ih => exact congrArg (h item ++ ·) ih
  rw [← hcollect f, ← hcollect f']
  exact (besides_collect (fun _ _ => True) hitems (fun item hitem _ _ _ => ⟨trivial, hkept item hitem⟩)
    (fun item hitem hkeeps _ _ _ => ⟨trivial, hother item hitem hkeeps⟩) trivial).2

end Diagnostic

theorem Refusals.besides_eq_self {node : Node} {file : FileId} {ds : List Diagnostic} (h : Refusals node ds)
    (hfile : node.file ≠ file) : Diagnostic.besides file ds = ds :=
  Diagnostic.besides_eq_self fun d hd => (h d hd).1.file ▸ hfile

theorem Refusals.besides_eq_nil {node : Node} {file : FileId} {ds : List Diagnostic} (h : Refusals node ds)
    (hfile : node.file = file) : Diagnostic.besides file ds = [] :=
  Diagnostic.besides_eq_nil fun d hd => (h d hd).1.file.trans hfile

/-! ### What a file declares -/

namespace LoadedFile

/-- The names of the classes that a file declares. -/
def classNames (file : LoadedFile) : List String := file.declared.classes.map (·.name.value)

def domainNames (file : LoadedFile) : List String := file.declared.domains.map (·.name.value)

end LoadedFile

/-- A class that is not in a file, and refers to nothing that the file declares. -/
structure Node.Apart (other : LoadedFile) (node : Node) : Prop where
  file : node.file ≠ other.id
  name : node.name ∉ other.classNames
  parent : ∀ name, node.declared.parent = some name → name.value ∉ other.classNames
  target : ∀ p ∈ node.properties, ∀ name, p.value.target? = some name → name ∉ other.classNames
  domain : ∀ p ∈ node.properties, ∀ field, p.value = .field field → field.domain ∉ other.domainNames

/-! ### Positions -/

/-- A file whose classes are put among others, at a position. -/
structure Widening where
  file : LoadedFile
  start : Nat

namespace Widening

variable (w : Widening)

/-- The number of classes that are put among the others. -/
def count : Nat := w.file.declared.classes.length

theorem length_eq_count {others : List Node} (h : others.map Node.declared = w.file.declared.classes) :
    others.length = w.count := by
  rw [count, ← h, List.length_map]

/-- Where a class stands that has stood at a position. -/
def place (position : Nat) : Nat := if position < w.start then position else position + w.count

/-- Whether a position is not of a class that has been put in. -/
def keeps (position : Nat) : Bool := position < w.start || w.start + w.count ≤ position

theorem keeps_eq_false_iff {position : Nat} :
    w.keeps position = false ↔ w.start ≤ position ∧ position < w.start + w.count := by
  rw [keeps, Bool.or_eq_false_iff, decide_eq_false_iff_not, decide_eq_false_iff_not, Nat.not_lt, Nat.not_le]

theorem place_of_lt {position : Nat} (h : position < w.start) : w.place position = position := if_pos h

theorem place_of_le {position : Nat} (h : w.start ≤ position) : w.place position = position + w.count :=
  if_neg (Nat.not_lt_of_le h)

theorem keeps_of_lt {position : Nat} (h : position < w.start) : w.keeps position = true := by
  rw [keeps, decide_eq_true h, Bool.true_or]

theorem keeps_of_le {position : Nat} (h : w.start + w.count ≤ position) : w.keeps position = true := by
  rw [keeps, decide_eq_true h, Bool.or_true]

theorem keeps_place (position : Nat) : w.keeps (w.place position) = true := by
  rcases Nat.lt_or_ge position w.start with hlt | hle
  · rw [w.place_of_lt hlt, w.keeps_of_lt hlt]
  · rw [w.place_of_le hle, w.keeps_of_le (Nat.add_le_add_right hle _)]

theorem place_injective : Function.Injective w.place := by
  intro i j h
  unfold place at h
  split at h <;> split at h <;> omega

/-- A class with its parent where that stands now. -/
def move (node : Node) : Node := { node with parent := node.parent.map w.place }

@[simp] theorem name_move (node : Node) : (w.move node).name = node.name := rfl

@[simp] theorem file_move (node : Node) : (w.move node).file = node.file := rfl

@[simp] theorem declared_move (node : Node) : (w.move node).declared = node.declared := rfl

@[simp] theorem properties_move (node : Node) : (w.move node).properties = node.properties := rfl

@[simp] theorem toClass_move (node : Node) : (w.move node).toClass = node.toClass := rfl

/-- An alias whose class stands where it does now. -/
def movePending (pending : PendingAlias) : PendingAlias := { pending with owner := w.place pending.owner }

/-- A property whose class stands where it does now. -/
def moveProperty (place : PropertyPosition) : PropertyPosition := { place with owner := w.place place.owner }

end Widening

/-! ### Graphs -/

/-- The graph `g'` is `g` with the classes of a file put in. -/
structure Graph.Widens (w : Widening) (g g' : Graph) : Prop where
  nodes : ∃ first others last, g.nodes = first ++ last ∧ g'.nodes = first.map w.move ++ (others ++ last.map w.move)
    ∧ first.length = w.start ∧ others.map Node.declared = w.file.declared.classes
    ∧ ∀ node ∈ others, node.file = w.file.id
  pending : g'.pending.filter (w.keeps ·.owner) = g.pending.map w.movePending
  scope : ∀ id ≠ w.file.id, g'.scope? id = g.scope? id
  domains : ∀ name ∉ w.file.domainNames, g'.domains.get? name = g.domains.get? name

namespace Graph.Widens

variable {w : Widening} {g g' : Graph} (h : g.Widens w g')
include h

theorem getElem?_place (i : Nat) : g'.nodes[w.place i]? = g.nodes[i]?.map w.move := by
  obtain ⟨first, others, last, hnodes, hnodes', hstart, hothers, -⟩ := h.nodes
  have hcount := w.length_eq_count hothers
  rw [hnodes, hnodes']
  rcases Nat.lt_or_ge i w.start with hi | hi
  · rw [w.place_of_lt hi, List.getElem?_append_left (by rw [List.length_map]; omega), List.getElem?_map,
      List.getElem?_append_left (by omega)]
  · rw [w.place_of_le hi, List.getElem?_append_right (by rw [List.length_map]; omega),
      List.getElem?_append_right (by rw [List.length_map]; omega), List.getElem?_map,
      List.getElem?_append_right (by omega), List.length_map]
    congr 2
    omega

theorem other_at {i : Nat} {node : Node} (hi : w.keeps i = false) (hnode : g'.nodes[i]? = some node) :
    node.file = w.file.id ∧ node.name ∈ w.file.classNames := by
  obtain ⟨first, others, last, -, hnodes', hstart, hothers, hfile⟩ := h.nodes
  obtain ⟨hle, hlt⟩ := w.keeps_eq_false_iff.mp hi
  have hcount := w.length_eq_count hothers
  rw [hnodes', List.getElem?_append_right (by rw [List.length_map]; omega),
    List.getElem?_append_left (by rw [List.length_map]; omega)] at hnode
  have hmem := List.mem_of_getElem? hnode
  refine ⟨hfile node hmem, ?_⟩
  rw [LoadedFile.classNames, ← hothers, List.map_map]
  exact List.mem_map_of_mem hmem

theorem zipIdx_nodes : g'.nodes.zipIdx.filter (fun place => w.keeps place.2)
    = g.nodes.zipIdx.map fun place => (w.move place.1, w.place place.2) := by
  obtain ⟨first, others, last, hnodes, hnodes', hstart, hothers, -⟩ := h.nodes
  have hcount := w.length_eq_count hothers
  have hfirst : ((first.map w.move).zipIdx 0).filter (fun place => w.keeps place.2)
      = (first.zipIdx 0).map fun place => (w.move place.1, w.place place.2) := by
    rw [List.filter_eq_self.mpr, List.zipIdx_map]
    · refine List.map_congr_left fun (node, i) hi => ?_
      have hlt := (List.mem_zipIdx hi).2.1
      rw [w.place_of_lt (by omega)]
      rfl
    · intro (node, i) hi
      have hlt := (List.mem_zipIdx hi).2.1
      rw [List.length_map] at hlt
      exact w.keeps_of_lt (by dsimp only; omega)
  have hmid : (others.zipIdx w.start).filter (fun place => w.keeps place.2) = [] := by
    refine List.filter_eq_nil_iff.mpr fun (node, i) hi => ?_
    have hi := List.mem_zipIdx hi
    exact Bool.eq_false_iff.mp (w.keeps_eq_false_iff.mpr ⟨hi.1, by omega⟩)
  have hlast : ((last.map w.move).zipIdx (w.start + w.count)).filter (fun place => w.keeps place.2)
      = (last.zipIdx w.start).map fun place => (w.move place.1, w.place place.2) := by
    rw [List.filter_eq_self.mpr, List.zipIdx_map, List.zipIdx_eq_map_add, @List.zipIdx_eq_map_add _ last w.start,
      List.map_map, List.map_map]
    · refine List.map_congr_left fun (node, i) _ => ?_
      simp only [Function.comp_apply, Prod.map_apply, id_eq]
      rw [w.place_of_le (Nat.le_add_right _ _)]
      congr 1
      omega
    · intro (node, i) hi
      have hle := (List.mem_zipIdx hi).1
      exact w.keeps_of_le hle
  rw [hnodes, hnodes', List.zipIdx_append, List.zipIdx_append, List.zipIdx_append, List.filter_append,
    List.filter_append, List.length_map, Nat.zero_add, hstart, hcount, hfirst, hmid, hlast, List.nil_append,
    List.map_append]

theorem filter_nodes (hfile : ∀ node ∈ g.nodes, node.file ≠ w.file.id) :
    g'.nodes.filter (·.file ≠ w.file.id) = g.nodes.map w.move := by
  obtain ⟨first, others, last, hnodes, hnodes', -, -, hothers⟩ := h.nodes
  have hkept {kept : List Node} (hsub : kept ⊆ g.nodes) :
      (kept.map w.move).filter (·.file ≠ w.file.id) = kept.map w.move := by
    refine List.filter_eq_self.mpr fun node hnode => decide_eq_true ?_
    obtain ⟨node, hmem, rfl⟩ := List.mem_map.mp hnode
    exact hfile node (hsub hmem)
  have hnone : others.filter (·.file ≠ w.file.id) = [] :=
    List.filter_eq_nil_iff.mpr fun node hnode => by simpa using hothers node hnode
  rw [hnodes', List.filter_append, List.filter_append, hnone, List.nil_append,
    hkept (hnodes ▸ List.subset_append_left first last), hkept (hnodes ▸ List.subset_append_right first last), hnodes,
    List.map_append]

/-! ### Names -/

theorem position?_eq {name : String} (hname : name ∉ w.file.classNames) :
    g'.position? name = (g.position? name).map w.place := by
  obtain ⟨first, others, last, hnodes, hnodes', hstart, hothers, -⟩ := h.nodes
  have hcount := w.length_eq_count hothers
  have hnone : others.findIdx? (·.name == name) = none := by
    refine List.findIdx?_eq_none_iff.mpr fun node hnode => beq_false_of_ne fun heq => hname ?_
    rw [LoadedFile.classNames, ← hothers, List.map_map, ← heq]
    exact List.mem_map_of_mem hnode
  have hmoved (nodes : List Node) : (nodes.map w.move).findIdx? (·.name == name) = nodes.findIdx? (·.name == name) :=
    List.findIdx?_map
  rw [position?, position?, hnodes, hnodes', List.findIdx?_append, List.findIdx?_append, List.findIdx?_append, hmoved,
    hmoved, hnone, Option.none_or]
  rcases hfirst : first.findIdx? (·.name == name) with _ | i
  · rw [hfirst, Option.none_or, Option.none_or, Option.map_map, Option.map_map]
    congr 1
    funext i
    simp only [Function.comp_apply, List.length_map]
    rw [w.place_of_le (by omega)]
    omega
  · have hlt := (List.findIdx?_eq_some_iff_getElem.mp hfirst).1
    rw [hfirst, Option.some_or, Option.some_or, Option.map_some, w.place_of_lt (by omega)]

theorem node?_eq {name : String} (hname : name ∉ w.file.classNames) :
    g'.node? name = (g.node? name).map w.move := by
  rw [node?_eq_bind_position?, node?_eq_bind_position?, h.position?_eq hname]
  rcases g.position? name with _ | position
  · rfl
  · exact h.getElem?_place position

theorem domain?_eq {name : String} (hname : name ∉ w.file.domainNames) : g'.domain? name = g.domain? name :=
  congrArg (Option.map DomainEntry.domain) (h.domains name hname)

theorem isVisible_eq {source : FileId} (hsource : source ≠ w.file.id) (target : FileId) :
    g'.isVisible source target = g.isVisible source target := by
  rw [isVisible, isVisible, h.scope source hsource]

/-! ### Primary keys -/

theorem primaryKeyAbove?_eq (visited : List Nat) (i : Nat) :
    g'.primaryKeyAbove? (visited.map w.place) (w.place i)
      = (g.primaryKeyAbove? visited i).map (Prod.map w.place id) := by
  obtain ⟨n, hn⟩ : ∃ n, unvisited (List.range g.nodes.length) visited = n := ⟨_, rfl⟩
  induction n using Nat.strongRecOn generalizing visited i with
  | ind n ih =>
    have hcontains : (visited.map w.place).contains (w.place i) = visited.contains i := by
      rw [Bool.eq_iff_iff, List.contains_iff_mem, List.contains_iff_mem,
        List.mem_map_of_injective w.place_injective]
    rw [Graph.primaryKeyAbove?_eq, Graph.primaryKeyAbove?_eq g, h.getElem?_place, hcontains]
    split
    · rfl
    · next hvisited =>
      rcases hnode : g.nodes[i]? with _ | node
      · rfl
      · have hlt : unvisited (List.range g.nodes.length) (i :: visited) < n :=
          hn ▸ unvisited_cons_lt (List.mem_range.mpr (List.getElem?_eq_some_iff.mp hnode).1) (by simpa using hvisited)
        rw [Option.map_some, Option.bind_some, Option.bind_some, Widening.toClass_move, Widening.move]
        rcases node.toClass.ownPrimaryKey? with _ | key
        · rcases node.parent with _ | parent
          · rfl
          · exact ih _ hlt (i :: visited) parent rfl
        · rfl

theorem primaryKey?_eq (i : Nat) : g'.primaryKey? (w.place i) = (g.primaryKey? i).map (Prod.map w.place id) :=
  h.primaryKeyAbove?_eq [] i

theorem map_snd_primaryKey? (i : Nat) : (g'.primaryKey? (w.place i)).map Prod.snd = (g.primaryKey? i).map Prod.snd := by
  rw [h.primaryKey?_eq, Option.map_map]
  rfl

theorem inheritedKey?_eq (node : Node) :
    g'.inheritedKey? (w.move node) = (g.inheritedKey? node).map (Prod.map w.place id) := by
  rw [inheritedKey?, inheritedKey?, Widening.move]
  rcases node.parent with _ | parent
  · rfl
  · exact h.primaryKey?_eq parent

theorem name_at (i : Nat) : g'.nodes[w.place i]?.map Node.name = g.nodes[i]?.map Node.name := by
  rw [h.getElem?_place, Option.map_map]
  rfl

/-! ### Steps -/

theorem set (i : Nat) (node : Node) :
    ({ g with nodes := g.nodes.set i node } : Graph).Widens w
      { g' with nodes := g'.nodes.set (w.place i) (w.move node) } := by
  obtain ⟨first, others, last, hnodes, hnodes', hstart, hothers, hfile⟩ := h.nodes
  refine ⟨?_, h.pending, h.scope, h.domains⟩
  rcases Nat.lt_or_ge i w.start with hi | hi
  · refine ⟨first.set i node, others, last, ?_, ?_, ?_, hothers, hfile⟩
    · rw [hnodes, List.set_append_left _ _ (by omega)]
    · rw [hnodes', w.place_of_lt hi, List.set_append_left _ _ (by rw [List.length_map]; omega), List.map_set]
    · rw [List.length_set, hstart]
  · have hcount := w.length_eq_count hothers
    refine ⟨first, others, last.set (i - w.start) node, ?_, ?_, hstart, hothers, hfile⟩
    · rw [hnodes, List.set_append_right _ _ (by omega), hstart]
    · have hindex : i + w.count - w.start - w.count = i - w.start := by omega
      rw [hnodes', w.place_of_le hi, List.set_append_right _ _ (by rw [List.length_map]; omega),
        List.set_append_right _ _ (by rw [List.length_map]; omega), List.length_map, hstart, hcount, hindex,
        List.map_set]

theorem set_other {i : Nat} {node node' : Node} (hi : w.keeps i = false) (hnode : g'.nodes[i]? = some node)
    (hfile : node'.file = node.file) (hdeclared : node'.declared = node.declared) :
    g.Widens w { g' with nodes := g'.nodes.set i node' } := by
  obtain ⟨first, others, last, hnodes, hnodes', hstart, hothers, hfiles⟩ := h.nodes
  obtain ⟨hle, hlt⟩ := w.keeps_eq_false_iff.mp hi
  have hcount := w.length_eq_count hothers
  rw [hnodes', List.getElem?_append_right (by rw [List.length_map]; omega), List.length_map,
    List.getElem?_append_left (by omega)] at hnode
  refine ⟨⟨first, others.set (i - first.length) node', last, hnodes, ?_, hstart, ?_, fun other hother => ?_⟩, h.pending,
    h.scope, h.domains⟩
  · rw [hnodes', List.set_append_right _ _ (by rw [List.length_map]; omega), List.length_map,
      List.set_append_left _ _ (by omega)]
  · rw [map_set_of_eq hnode hdeclared, hothers]
  · rcases List.mem_or_eq_of_mem_set hother with hother | rfl
    · exact hfiles other hother
    · exact hfile.trans (hfiles node (List.mem_of_getElem? hnode))

/-! ### Problems -/

variable {node : Node} (hfile : node.file ≠ w.file.id)
include hfile

theorem diagnostic_eq (kind : DiagnosticKind) (span : Span) (message : String) :
    g'.diagnostic (w.move node) kind span message = g.diagnostic node kind span message := by
  rw [diagnostic, diagnostic, locate, locate, Widening.file_move, h.scope node.file hfile, Widening.name_move]

theorem fieldDiagnostic_eq (kind : DiagnosticKind) (span : Span) (field message : String) :
    g'.fieldDiagnostic (w.move node) kind span field message = g.fieldDiagnostic node kind span field message := by
  rw [fieldDiagnostic, fieldDiagnostic, h.diagnostic_eq hfile]

theorem propertyDiagnostic_eq (property : Spanned Property) (kind : DiagnosticKind) (message : String) :
    g'.propertyDiagnostic (w.move node) property kind message = g.propertyDiagnostic node property kind message :=
  h.fieldDiagnostic_eq hfile kind property.span property.value.name message

end Graph.Widens

end EntityModel
