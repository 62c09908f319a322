/-!
# What a search has not visited yet

A search that never visits an item twice ends, because with every item the number of those still
unvisited falls.
-/

namespace EntityModel

/-- The number of items that are not among the visited ones. -/
def unvisited {α : Type} [BEq α] (items visited : List α) : Nat :=
  items.countP (!visited.contains ·)

/-- Visiting one more item leaves no more unvisited. -/
theorem unvisited_cons_le {α : Type} [BEq α] (items visited : List α) (item : α) :
    unvisited items (item :: visited) ≤ unvisited items visited := by
  apply List.countP_mono_left
  intro x _ h
  simp only [List.contains_cons, Bool.not_or, Bool.and_eq_true] at h
  exact h.2

/-- Visiting an item for the first time leaves fewer unvisited. -/
theorem unvisited_cons_lt {α : Type} [BEq α] [LawfulBEq α] {items visited : List α} {item : α}
    (member : item ∈ items) (fresh : visited.contains item = false) :
    unvisited items (item :: visited) < unvisited items visited := by
  obtain ⟨before, after, rfl⟩ := List.append_of_mem member
  have first := unvisited_cons_le before visited item
  have last := unvisited_cons_le after visited item
  unfold unvisited at *
  have gone : ¬ (!(item :: visited).contains item) = true := by simp
  have there : (!visited.contains item) = true := by rw [fresh]; rfl
  rw [List.countP_append, List.countP_append,
    List.countP_cons_of_neg (p := fun x => !(item :: visited).contains x) gone,
    List.countP_cons_of_pos (p := fun x => !visited.contains x) there]
  omega

end EntityModel
