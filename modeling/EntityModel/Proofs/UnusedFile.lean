import EntityModel.Proofs.LoadOrder

/-!
# The order with an unused file

A file that no other uses has nobody wait for it, so that placing it makes no other file ready and changes no
counter: with it or without it, the others are placed in the same order (`order_insert`).
-/

namespace EntityModel.LoadOrder

/-! ### The batch -/

variable {file : LoadedFile} {before after : List LoadedFile}

theorem last?_insert_self (hnew : ∀ other ∈ before ++ after, other.id ≠ file.id) :
    last? (before ++ file :: after) file.id = some file := by
  rw [last?, fileOf?, List.reverse_append, List.reverse_cons, List.append_assoc, List.find?_append,
    List.find?_eq_none.mpr]
  · simp
  · intro other hother
    simpa using hnew other (List.mem_append_right _ (List.mem_reverse.mp hother))

theorem last?_insert_of_ne {id : FileId} (hid : file.id ≠ id) :
    last? (before ++ file :: after) id = last? (before ++ after) id := by
  have hfile : (file.id == id) = false := beq_false_of_ne hid
  simp [last?, fileOf?, hfile]

theorem eq_of_pairwise_ids {files others : List LoadedFile} (h : files.Pairwise fun a b => compare a.id b.id = .lt)
    (h' : others.Pairwise fun a b => compare a.id b.id = .lt) (hmem : ∀ file, file ∈ files ↔ file ∈ others) :
    files = others := by
  have hdistinct {files : List LoadedFile} (h : files.Pairwise fun a b => compare a.id b.id = .lt) : files.Nodup :=
    (nodup_ids h).of_map _
  have hperm : files.Perm others := (List.perm_ext_iff_of_nodup (hdistinct h) (hdistinct h')).mpr hmem
  refine @List.Perm.eq_of_pairwise LoadedFile (fun a b => compare a.id b.id = .lt) _ _ (fun a b _ _ hab hba => ?_)
    h h' hperm
  exact absurd hba (Std.OrientedCmp.not_lt_of_lt hab)

theorem values_batch_insert (hnew : ∀ other ∈ before ++ after, other.id ≠ file.id) :
    ∃ first last, (batch (before ++ file :: after)).values = first ++ file :: last
      ∧ (batch (before ++ after)).values = first ++ last := by
  have hfile : file ∈ (batch (before ++ file :: after)).values := mem_values_batch.mpr (last?_insert_self hnew)
  obtain ⟨first, last, hvalues⟩ := List.append_of_mem hfile
  refine ⟨first, last, hvalues, ?_⟩
  have hsorted := pairwise_values_batch (before ++ file :: after)
  have hids := nodup_ids hsorted
  rw [hvalues] at hsorted hids
  have hsub : (first ++ last).Sublist (first ++ file :: last) := (List.sublist_cons_self file last).append_left first
  refine eq_of_pairwise_ids (pairwise_values_batch _) (hsorted.sublist hsub) fun other => ?_
  rw [mem_values_batch]
  by_cases hother : file.id = other.id
  · refine iff_of_false (fun hlast => ?_) fun hmem => ?_
    · have hthere := List.mem_reverse.mp (List.mem_of_find?_eq_some hlast)
      exact hnew other hthere hother.symm
    · have hperm : ((first ++ file :: last).map LoadedFile.id).Perm ((file :: (first ++ last)).map LoadedFile.id) :=
        List.perm_middle.map _
      rw [hperm.nodup_iff, List.map_cons, List.nodup_cons, hother] at hids
      exact hids.1 (List.mem_map_of_mem hmem)
  · have hne : other ≠ file := fun heq => hother (heq ▸ rfl)
    rw [← last?_insert_of_ne hother, ← mem_values_batch, hvalues]
    simp [hne]

/-! ### The placing -/

theorem settle_of_unused {id : FileId} {waiting : Waiting} (h : id ∉ waiting.file.uses) :
    waiting.settle id = waiting := by
  rw [Waiting.settle, List.count_eq_zero_of_not_mem h, Nat.sub_zero]

theorem step?_append_of_some {waiting others : List Waiting} {next : Waiting}
    (h : waiting.find? Waiting.isReady = some next) :
    step? (waiting ++ others) = some (next.file, (waiting.eraseP Waiting.isReady).map (Waiting.settle next.file.id)
      ++ others.map (Waiting.settle next.file.id)) := by
  have hready := List.find?_some h
  rw [step?, List.find?_append, h, Option.some_or, Option.map_some,
    List.eraseP_append_left hready _ (List.mem_of_find?_eq_some h), List.map_append]

theorem step?_append_of_none {waiting others : List Waiting} {next : Waiting}
    (h : waiting.find? Waiting.isReady = none) (h' : others.find? Waiting.isReady = some next) :
    step? (waiting ++ others) = some (next.file, waiting.map (Waiting.settle next.file.id)
      ++ (others.eraseP Waiting.isReady).map (Waiting.settle next.file.id)) := by
  have hnone : ∀ w ∈ waiting, ¬ w.isReady = true := List.find?_eq_none.mp h
  rw [step?, List.find?_append, h, Option.none_or, h', Option.map_some, List.eraseP_append_right _ hnone,
    List.map_append]

theorem place_of_step?_eq_none {waiting : List Waiting} (h : step? waiting = none) :
    place waiting = ([], waiting.map Waiting.file) := by
  rw [place]
  split
  · rfl
  · next hsome => rw [h] at hsome; cases hsome

theorem place_of_step? {waiting rest : List Waiting} {file : LoadedFile} (h : step? waiting = some (file, rest)) :
    place waiting = (file :: (place rest).1, (place rest).2) := by
  rw [place]
  split
  · next hnone => rw [h] at hnone; cases hnone
  · next other others hsome =>
    rw [h] at hsome
    cases hsome
    rfl

/-- What a step can do with a file that no other waits for: it places this one and changes nothing else, or it does
what it does without it. -/
theorem step?_insert {first last rest : List Waiting} {w : Waiting} {file : LoadedFile}
    (hunused : ∀ other ∈ first ++ last, w.file.id ∉ other.file.uses)
    (h : step? (first ++ w :: last) = some (file, rest)) :
    (file = w.file ∧ rest = first ++ last)
      ∨ ∃ first' last' : List Waiting, rest = first' ++ w.settle file.id :: last'
        ∧ step? (first ++ last) = some (file, first' ++ last')
        ∧ ∀ other ∈ first' ++ last', ∃ earlier ∈ first ++ last, other.file = earlier.file := by
  have hsettled {id : FileId} {kept kept' : List Waiting} (hfirst : kept ⊆ first) (hlast : kept' ⊆ last) :
      ∀ other ∈ kept.map (Waiting.settle id) ++ kept'.map (Waiting.settle id),
        ∃ earlier ∈ first ++ last, other.file = earlier.file := by
    intro other hother
    rw [← List.map_append] at hother
    obtain ⟨earlier, hearlier, rfl⟩ := List.mem_map.mp hother
    have hmem : earlier ∈ first ++ last := (List.mem_append.mp hearlier).elim
      (fun hkept => List.mem_append_left _ (hfirst hkept)) fun hkept => List.mem_append_right _ (hlast hkept)
    exact ⟨earlier, hmem, rfl⟩
  rcases hfirst : first.find? Waiting.isReady with _ | next
  · by_cases hready : w.isReady = true
    · have hfound : (w :: last).find? Waiting.isReady = some w := List.find?_cons_of_pos hready
      have hstep := step?_append_of_none hfirst hfound
      rw [List.eraseP_cons_of_pos hready, ← List.map_append] at hstep
      obtain ⟨rfl, rfl⟩ := Prod.mk.inj (Option.some.inj (h.symm.trans hstep))
      refine Or.inl ⟨rfl, ?_⟩
      exact (List.map_congr_left fun other hother => settle_of_unused (hunused other hother)).trans (List.map_id' _)
    · rcases hlast : last.find? Waiting.isReady with _ | next
      · rw [step?, List.find?_append, hfirst, Option.none_or, List.find?_cons_of_neg hready, hlast] at h
        cases h
      · have hfound : (w :: last).find? Waiting.isReady = some next := by
          rw [List.find?_cons_of_neg hready, hlast]
        have hstep := step?_append_of_none hfirst hfound
        rw [List.eraseP_cons_of_neg hready, List.map_cons] at hstep
        obtain ⟨rfl, rfl⟩ := Prod.mk.inj (Option.some.inj (h.symm.trans hstep))
        exact Or.inr ⟨_, _, rfl, step?_append_of_none hfirst hlast,
          hsettled (List.Subset.refl first) fun _ hmem => List.mem_of_mem_eraseP hmem⟩
  · have hstep := @step?_append_of_some first (w :: last) next hfirst
    rw [List.map_cons] at hstep
    obtain ⟨rfl, rfl⟩ := Prod.mk.inj (Option.some.inj (h.symm.trans hstep))
    exact Or.inr ⟨_, _, rfl, step?_append_of_some hfirst,
      hsettled (fun _ hmem => List.mem_of_mem_eraseP hmem) (List.Subset.refl last)⟩

/-- Without a file that no other waits for, the others are placed as they are with it. -/
theorem place_insert {first last : List Waiting} {w : Waiting}
    (hunused : ∀ other ∈ first ++ last, w.file.id ∉ other.file.uses) (hplaced : (place (first ++ w :: last)).2 = []) :
    ∃ before after, (place (first ++ w :: last)).1 = before ++ w.file :: after
      ∧ (place (first ++ last)).1 = before ++ after := by
  obtain ⟨n, hn⟩ : ∃ n, (first ++ last).length = n := ⟨_, rfl⟩
  induction n using Nat.strongRecOn generalizing first last w with
  | ind n ih =>
    rcases hstep : step? (first ++ w :: last) with _ | ⟨file, rest⟩
    · rw [place_of_step?_eq_none hstep] at hplaced
      simp at hplaced
    · rw [place_of_step? hstep] at hplaced ⊢
      obtain ⟨rfl, rfl⟩ | ⟨first', last', rfl, hstep', hrest⟩ := step?_insert hunused hstep
      · exact ⟨[], _, rfl, rfl⟩
      · have hlt : (first' ++ last').length < n := hn ▸ length_of_step? hstep'
        have hunused' : ∀ other ∈ first' ++ last', (w.settle file.id).file.id ∉ other.file.uses := by
          intro other hother
          obtain ⟨earlier, hearlier, hfile⟩ := hrest other hother
          rw [hfile]
          exact hunused earlier hearlier
        obtain ⟨before, after, hbefore, hafter⟩ := ih _ hlt hunused' hplaced rfl
        rw [place_of_step? hstep']
        exact ⟨file :: before, after, congrArg (file :: ·) hbefore, congrArg (file :: ·) hafter⟩

/-- **The order with an unused file.** If files have an order with one more that none of them uses, they have the
same order without it, with the file taken out. -/
theorem order_insert (hnew : ∀ other ∈ before ++ after, other.id ≠ file.id)
    (hunused : ∀ other ∈ before ++ after, file.id ∉ other.uses) {ordered small : List LoadedFile}
    (hlarge : order (before ++ file :: after) = .ok ordered) (hsmall : order (before ++ after) = .ok small) :
    ∃ first last, ordered = first ++ file :: last ∧ small = first ++ last := by
  obtain ⟨first, last, hvalues, hvalues'⟩ := values_batch_insert hnew
  have hplace {files ordered : List LoadedFile} (h : order files = .ok ordered) :
      ordered = (place (start (batch files))).1 ∧ (place (start (batch files))).2 = [] := by
    unfold order at h
    dsimp only at h
    split at h
    · cases h
    · split at h
      · next hleft => exact ⟨(Except.ok.inj h).symm, List.isEmpty_iff.mp hleft⟩
      · cases h
  obtain ⟨rfl, hleft⟩ := hplace hlarge
  obtain ⟨rfl, -⟩ := hplace hsmall
  rw [start, hvalues, List.map_append, List.map_cons] at hleft ⊢
  rw [start, hvalues', List.map_append]
  refine place_insert (fun other hother => ?_) hleft
  rw [← List.map_append] at hother
  obtain ⟨earlier, hearlier, rfl⟩ := List.mem_map.mp hother
  rw [← hvalues', mem_values_batch] at hearlier
  exact hunused earlier (List.mem_reverse.mp (List.mem_of_find?_eq_some hearlier))

end EntityModel.LoadOrder
