/-!
# Steps that may fail

What is known of steps that have all gone well: of two in a row, of one for each item of a list, and of those
that carry a state along a list.
-/

namespace EntityModel

variable {ε σ τ α β : Type}

theorem eq_ok_of_toOption {x : Except ε α} {a : α} (h : x.toOption = some a) : x = .ok a := by
  rcases x with e | b
  · cases h
  · exact congrArg Except.ok (Option.some.inj h)

theorem bind_eq_ok_iff {x : Except ε α} {f : α → Except ε β} {b : β} :
    (x >>= f) = .ok b ↔ ∃ a, x = .ok a ∧ f a = .ok b := by
  rcases x with e | a
  · exact iff_of_false (fun h => by cases h) (fun ⟨_, h, _⟩ => by cases h)
  · exact ⟨fun h => ⟨a, rfl, h⟩, fun ⟨_, h, hf⟩ => by cases h; exact hf⟩

/-! ### One step for each item -/

section each

variable {read read' : α → Except ε β} {items : List α} {results : List β}

theorem mapM_cons_eq_ok {first : α} {rest : List α} (h : (first :: rest).mapM read = .ok results) :
    ∃ b others, read first = .ok b ∧ rest.mapM read = .ok others ∧ results = b :: others := by
  rw [List.mapM_cons] at h
  obtain ⟨b, hread, hrest⟩ := bind_eq_ok_iff.mp h
  obtain ⟨others, hothers, hresults⟩ := bind_eq_ok_iff.mp hrest
  exact ⟨b, others, hread, hothers, (Except.ok.inj hresults).symm⟩

theorem exists_eq_ok_of_mapM (h : items.mapM read = .ok results) {item : α} (hitem : item ∈ items) :
    ∃ b, read item = .ok b := by
  induction items generalizing results with
  | nil => cases hitem
  | cons first rest ih =>
    obtain ⟨b, others, hread, hrest, -⟩ := mapM_cons_eq_ok h
    rcases List.mem_cons.mp hitem with rfl | hitem
    · exact ⟨b, hread⟩
    · exact ih hrest hitem

theorem exists_item_of_mapM (h : items.mapM read = .ok results) {b : β} (hb : b ∈ results) :
    ∃ item ∈ items, read item = .ok b := by
  induction items generalizing results with
  | nil =>
    cases h
    cases hb
  | cons first rest ih =>
    obtain ⟨b', others, hread, hrest, rfl⟩ := mapM_cons_eq_ok h
    rcases List.mem_cons.mp hb with rfl | hb
    · exact ⟨first, List.mem_cons_self, hread⟩
    · obtain ⟨item, hitem, hread'⟩ := ih hrest hb
      exact ⟨item, List.mem_cons_of_mem _ hitem, hread'⟩

theorem mapM_congr (h : ∀ item ∈ items, read item = read' item) : items.mapM read = items.mapM read' := by
  induction items with
  | nil => rfl
  | cons first rest ih =>
    rw [List.mapM_cons, List.mapM_cons, h first List.mem_cons_self,
      ih fun other hother => h other (List.mem_cons_of_mem _ hother)]

end each

/-! ### A state along a list -/

theorem foldlM_induction {f : σ → α → Except ε σ} {holds : σ → Prop} {items : List α}
    (hstep : ∀ state item state', item ∈ items → holds state → f state item = .ok state' → holds state')
    {state state' : σ} (hstart : holds state) (h : items.foldlM f state = .ok state') : holds state' := by
  induction items generalizing state with
  | nil =>
    cases h
    exact hstart
  | cons item rest ih =>
    rw [List.foldlM_cons] at h
    obtain ⟨next, hitem, hrest⟩ := bind_eq_ok_iff.mp h
    exact ih (fun s i s' hmem => hstep s i s' (List.mem_cons_of_mem _ hmem))
      (hstep state item next List.mem_cons_self hstart hitem) hrest

theorem foldlM_append_cons {f : σ → α → Except ε σ} {first last : List α} {item : α} {s t : σ}
    (h : (first ++ item :: last).foldlM f s = .ok t) :
    ∃ mid next, first.foldlM f s = .ok mid ∧ f mid item = .ok next ∧ last.foldlM f next = .ok t := by
  rw [List.foldlM_append] at h
  obtain ⟨mid, hmid, hrest⟩ := bind_eq_ok_iff.mp h
  rw [List.foldlM_cons] at hrest
  obtain ⟨next, hnext, hlast⟩ := bind_eq_ok_iff.mp hrest
  exact ⟨mid, next, hmid, hnext, hlast⟩

/-- How the states of two runs stand to each other stays when each step keeps it. -/
theorem foldlM_relation {f : σ → α → Except ε σ} {f' : τ → α → Except ε τ} {R : σ → τ → Prop}
    {items : List α} (hstep : ∀ item ∈ items, ∀ s t s' t', R s t → f s item = .ok s' → f' t item = .ok t' → R s' t')
    {s s' : σ} {t t' : τ} (hstart : R s t) (hs : items.foldlM f s = .ok s') (ht : items.foldlM f' t = .ok t') :
    R s' t' := by
  induction items generalizing s t with
  | nil =>
    cases hs
    cases ht
    exact hstart
  | cons item rest ih =>
    rw [List.foldlM_cons] at hs ht
    obtain ⟨s₁, hs₁, hs⟩ := bind_eq_ok_iff.mp hs
    obtain ⟨t₁, ht₁, ht⟩ := bind_eq_ok_iff.mp ht
    exact ih (fun i hi => hstep i (List.mem_cons_of_mem _ hi))
      (hstep item List.mem_cons_self s t s₁ t₁ hstart hs₁ ht₁) hs ht

end EntityModel
