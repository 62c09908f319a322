import EntityModel.LoadOrder
import EntityModel.Proofs.SortedMap
import Mathlib.Data.Fintype.EquivFin
import Mathlib.Data.Fintype.Sets
import Mathlib.Logic.Relation
import Mathlib.Order.WellFounded

/-!
# The order in which files are loaded

Of several files with one identity the last counts (`last?`). `order_least`: files have an order in which each
follows all it uses if and only if all files used are there and none uses itself, directly or not; then the
least such order is found, and otherwise which of the two is wrong is told.

The invariant of the placing is `Placing`: the counter of a file that waits is the number of its uses that are
not placed. The order found is the least because the file placed next is the least of those that could stand
next in any order.
-/

namespace EntityModel.LoadOrder

/-! ### Orders of files -/

/-- The last of some files with an identity. -/
def last? (files : List LoadedFile) (id : FileId) : Option LoadedFile := fileOf? files.reverse id

/-- Among the files that count, one uses another. -/
def Uses (files : List LoadedFile) (user used : FileId) : Prop :=
  ∃ file, last? files user = some file ∧ used ∈ file.uses

/-- Every file that is used is there. -/
def Complete (files : List LoadedFile) : Prop :=
  ∀ user used, Uses files user used → used ∈ files.map LoadedFile.id

/-- Some file uses itself, directly or not. -/
def Cyclic (files : List LoadedFile) : Prop := ∃ id, Relation.TransGen (Uses files) id id

/-- Each file follows all it uses, some of which have been placed before. -/
def Follows (placed : List FileId) : List LoadedFile → Prop
  | [] => True
  | file :: rest => (∀ used ∈ file.uses, used ∈ placed) ∧ Follows (file.id :: placed) rest

/-- An order of the files that count, in which each follows all it uses. -/
structure IsOrder (files ordered : List LoadedFile) : Prop where
  mem : ∀ file, file ∈ ordered ↔ last? files file.id = some file
  nodup : (ordered.map LoadedFile.id).Nodup
  follows : Follows [] ordered

/-- Of two lists, the first has the lesser identity at the first place where they differ. -/
def Precedes (first other : List LoadedFile) : Prop :=
  List.Lex (fun a b => compare a b = .lt) (first.map LoadedFile.id) (other.map LoadedFile.id)

/-- The least order of the files. -/
def IsLeastOrder (files ordered : List LoadedFile) : Prop :=
  IsOrder files ordered ∧ ∀ other, IsOrder files other → ordered = other ∨ Precedes ordered other

/-! ### The batch -/

theorem id_of_last? {files : List LoadedFile} {id : FileId} {file : LoadedFile} (h : last? files id = some file) :
    file.id = id := by
  have hfound := List.find?_some h
  exact beq_iff_eq.mp hfound

theorem get?_batch (files : List LoadedFile) (id : FileId) : (batch files).get? id = last? files id := by
  induction files using List.reverseRecOn with
  | nil => rfl
  | append_singleton files file ih =>
    have hbatch : batch (files ++ [file]) = (batch files).insert file.id file := by
      simp [batch, SortedMap.ofList]
    have hlast : last? (files ++ [file]) id = if file.id = id then some file else last? files id := by
      rw [last?, fileOf?, List.reverse_concat, List.find?_cons, last?, fileOf?]
      by_cases hid : file.id = id
      · simp [hid]
      · simp [hid, beq_eq_false_iff_ne.mpr hid]
    rw [hbatch, hlast]
    by_cases hid : file.id = id
    · rw [if_pos hid, ← hid, SortedMap.get?_insert_self]
    · rw [if_neg hid, SortedMap.get?_insert_of_ne _ _ hid, ih]

theorem sorted_batch (files : List LoadedFile) : (batch files).Sorted := SortedMap.sorted_ofList _

theorem mem_values_batch {files : List LoadedFile} {file : LoadedFile} :
    file ∈ (batch files).values ↔ last? files file.id = some file := by
  rw [SortedMap.values, List.mem_map]
  constructor
  · rintro ⟨⟨id, _⟩, hentry, rfl⟩
    have hlast := (sorted_batch files).get?_eq_some_iff.mpr hentry
    rw [get?_batch] at hlast
    rwa [id_of_last? hlast]
  · intro hlast
    rw [← get?_batch] at hlast
    exact ⟨(file.id, file), (sorted_batch files).get?_eq_some_iff.mp hlast, rfl⟩

theorem contains_batch {files : List LoadedFile} {id : FileId} :
    (batch files).contains id = true ↔ id ∈ files.map LoadedFile.id := by
  rw [SortedMap.contains, SortedMap.get?_isSome_iff, batch, SortedMap.mem_keys_ofList, List.map_map]
  rfl

theorem exists_last? {files : List LoadedFile} {id : FileId} (h : id ∈ files.map LoadedFile.id) :
    ∃ file, last? files id = some file := by
  rw [← contains_batch, SortedMap.contains, get?_batch] at h
  exact Option.isSome_iff_exists.mp h

theorem uses_iff {files : List LoadedFile} {file : LoadedFile} (hlast : last? files file.id = some file)
    {used : FileId} : Uses files file.id used ↔ used ∈ file.uses := by
  constructor
  · rintro ⟨other, hother, hused⟩
    rw [hlast] at hother
    cases hother
    exact hused
  · intro hused
    exact ⟨file, hlast, hused⟩

theorem pairwise_values_batch (files : List LoadedFile) :
    (batch files).values.Pairwise fun a b => compare a.id b.id = .lt := by
  refine List.pairwise_map.mpr ((sorted_batch files).imp_of_mem fun {a b} ha hb hlt => ?_)
  have hid : ∀ entry ∈ (batch files).entries, entry.2.id = entry.1 := by
    intro entry hentry
    have hlast := (sorted_batch files).get?_eq_some_iff.mpr hentry
    rw [get?_batch] at hlast
    exact id_of_last? hlast
  rwa [hid a ha, hid b hb]

theorem batch_congr {files other : List LoadedFile} (h : ∀ id, last? other id = last? files id) :
    batch other = batch files := by
  refine (sorted_batch other).ext (sorted_batch files) fun id => ?_
  rw [get?_batch, get?_batch, h]

theorem missing?_eq_some {files : List LoadedFile} {user used : FileId}
    (h : missing? (batch files) = some (user, used)) : Uses files user used ∧ used ∉ files.map LoadedFile.id := by
  obtain ⟨file, hfile, hfound⟩ := List.exists_of_findSome?_eq_some h
  obtain ⟨found, hused, hpair⟩ := Option.map_eq_some_iff.mp hfound
  cases hpair
  have habsent := List.find?_some hused
  refine ⟨⟨file, mem_values_batch.mp hfile, List.mem_of_find?_eq_some hused⟩, fun hmem => ?_⟩
  rw [contains_batch.mpr hmem] at habsent
  exact Bool.noConfusion habsent

theorem complete_of_missing?_eq_none {files : List LoadedFile} (h : missing? (batch files) = none) :
    Complete files := by
  rintro user used ⟨file, hlast, hused⟩
  have hmem : file ∈ (batch files).values := mem_values_batch.mpr (id_of_last? hlast ▸ hlast)
  have hnone := List.findSome?_eq_none_iff.mp h file hmem
  rw [Option.map_eq_none_iff, List.find?_eq_none] at hnone
  have hthere := hnone used hused
  rw [Bool.not_eq_true, Bool.not_eq_false'] at hthere
  exact contains_batch.mp hthere

theorem nodup_ids {files : List LoadedFile} (h : files.Pairwise fun a b => compare a.id b.id = .lt) :
    (files.map LoadedFile.id).Nodup := by
  refine List.pairwise_map.mpr (h.imp fun {a b} hlt heq => ?_)
  rw [heq, Std.compare_self] at hlt
  contradiction

/-! ### One step of the placing -/

/-- The files that wait once some have been placed: they stand in order, none has been placed, and each counts
those of its uses that have not. -/
structure Placing (placed : List FileId) (waiting : List Waiting) : Prop where
  sorted : (waiting.map Waiting.file).Pairwise fun a b => compare a.id b.id = .lt
  fresh : ∀ w ∈ waiting, w.file.id ∉ placed
  unmet : ∀ w ∈ waiting, w.unmet = unvisited w.file.uses placed

theorem map_file_start (files : SortedMap FileId LoadedFile) : (start files).map Waiting.file = files.values := by
  simp [start, Function.comp_def]

theorem placing_start (files : List LoadedFile) : Placing [] (start (batch files)) where
  sorted := by
    rw [map_file_start]
    exact pairwise_values_batch files
  fresh _ _ := List.not_mem_nil
  unmet w hw := by
    obtain ⟨file, -, rfl⟩ := List.mem_map.mp hw
    simp [unvisited]

/-- Placing a file for the first time, the number of uses that are not placed falls by those of that file. -/
theorem unvisited_cons_add_count (items placed : List FileId) {id : FileId} (hid : id ∉ placed) :
    unvisited items (id :: placed) + items.count id = unvisited items placed := by
  induction items with
  | nil => rfl
  | cons item rest ih =>
    have hcons : ∀ visited : List FileId, unvisited (item :: rest) visited
        = unvisited rest visited + if (!visited.contains item) = true then 1 else 0 :=
      fun _ => List.countP_cons
    rw [hcons, hcons, List.count_cons, List.contains_cons]
    by_cases hsame : item = id
    · subst hsame
      have hnot : placed.contains item = false := by simpa using hid
      rw [beq_self_eq_true, Bool.true_or, hnot]
      simp only [Bool.not_true, Bool.not_false, Bool.false_eq_true, if_true, if_false]
      omega
    · rw [beq_eq_false_iff_ne.mpr hsame, Bool.false_or]
      simp only [Bool.false_eq_true, if_false]
      omega

theorem step?_eq_some {waiting rest : List Waiting} {file : LoadedFile} (h : step? waiting = some (file, rest)) :
    ∃ before next after, waiting = before ++ next :: after ∧ next.file = file ∧ next.unmet = 0
      ∧ (∀ w ∈ before, w.unmet ≠ 0) ∧ rest = (before ++ after).map (Waiting.settle file.id) := by
  obtain ⟨next, hfound, htaken⟩ := Option.map_eq_some_iff.mp h
  cases htaken
  obtain ⟨hready, before, after, rfl, hbefore⟩ := List.find?_eq_some_iff_append.mp hfound
  have hwaits : ∀ w ∈ before, w.unmet ≠ 0 := by
    intro w hw
    simpa [Waiting.isReady] using hbefore w hw
  refine ⟨before, next, after, rfl, rfl, by simpa [Waiting.isReady] using hready, hwaits, ?_⟩
  rw [List.eraseP_append_right, List.eraseP_cons_of_pos hready]
  intro w hw
  simpa [Waiting.isReady] using hwaits w hw

theorem unmet_ne_zero_of_step?_eq_none {waiting : List Waiting} (h : step? waiting = none) {w : Waiting}
    (hw : w ∈ waiting) : w.unmet ≠ 0 := by
  rw [step?, Option.map_eq_none_iff, List.find?_eq_none] at h
  simpa [Waiting.isReady] using h w hw

section step

variable {placed : List FileId} {waiting rest : List Waiting} {file : LoadedFile}

/-- A counter is at least what a step takes off it. -/
theorem Placing.count_le (h : Placing placed waiting) (hstep : step? waiting = some (file, rest)) {w : Waiting}
    (hw : w ∈ waiting) : w.file.uses.count file.id ≤ w.unmet := by
  obtain ⟨before, next, after, rfl, rfl, -⟩ := step?_eq_some hstep
  have hcount := unvisited_cons_add_count w.file.uses placed (h.fresh next (by simp))
  rw [h.unmet w hw]
  omega

theorem Placing.unmet_eq_zero_iff (h : Placing placed waiting) {w : Waiting} (hw : w ∈ waiting) :
    w.unmet = 0 ↔ ∀ used ∈ w.file.uses, used ∈ placed := by
  rw [h.unmet w hw, unvisited, List.countP_eq_zero]
  simp

theorem Placing.uses_placed (h : Placing placed waiting) (hstep : step? waiting = some (file, rest)) :
    ∀ used ∈ file.uses, used ∈ placed := by
  obtain ⟨before, next, after, rfl, rfl, hready, -⟩ := step?_eq_some hstep
  exact (h.unmet_eq_zero_iff (by simp)).mp hready

theorem perm_of_step? (hstep : step? waiting = some (file, rest)) :
    (file :: rest.map Waiting.file).Perm (waiting.map Waiting.file) := by
  obtain ⟨before, next, after, rfl, rfl, -, -, rfl⟩ := step?_eq_some hstep
  have hsettle : ∀ id, Waiting.file ∘ Waiting.settle id = Waiting.file := fun _ => rfl
  rw [List.map_map, hsettle, List.map_append, List.map_append, List.map_cons]
  exact List.perm_middle.symm

/-- No file that uses placed files only comes before the one that is placed. -/
theorem Placing.least (h : Placing placed waiting) (hstep : step? waiting = some (file, rest)) {other : LoadedFile}
    (hother : other ∈ waiting.map Waiting.file) (huses : ∀ used ∈ other.uses, used ∈ placed) :
    other = file ∨ compare file.id other.id = .lt := by
  obtain ⟨before, next, after, rfl, rfl, -, hbefore, -⟩ := step?_eq_some hstep
  obtain ⟨w, hw, rfl⟩ := List.mem_map.mp hother
  have hready : w.unmet = 0 := (h.unmet_eq_zero_iff hw).mpr huses
  rcases List.mem_append.mp hw with hw | hw
  · exact absurd hready (hbefore w hw)
  · rcases List.mem_cons.mp hw with rfl | hw
    · exact Or.inl rfl
    · have hsorted := h.sorted
      rw [List.map_append, List.map_cons] at hsorted
      have hlater := List.pairwise_cons.mp (List.pairwise_append.mp hsorted).2.1
      exact Or.inr (hlater.1 w.file (List.mem_map.mpr ⟨w, hw, rfl⟩))

theorem Placing.step (h : Placing placed waiting) (hstep : step? waiting = some (file, rest)) :
    Placing (file.id :: placed) rest := by
  have hother : ∀ w ∈ rest, w.file.id ≠ file.id := by
    intro w hw heq
    have hnodup := ((perm_of_step? hstep).map LoadedFile.id).nodup_iff.mpr (nodup_ids h.sorted)
    rw [List.map_cons, List.nodup_cons, ← heq] at hnodup
    exact hnodup.1 (List.mem_map_of_mem (List.mem_map_of_mem hw))
  obtain ⟨before, next, after, rfl, rfl, -, -, rfl⟩ := step?_eq_some hstep
  have hsub : (before ++ after).Sublist (before ++ next :: after) :=
    (List.sublist_cons_self next after).append_left before
  have hnext : next.file.id ∉ placed := h.fresh next (by simp)
  constructor
  · rw [List.map_map]
    exact h.sorted.sublist (hsub.map Waiting.file)
  · intro w hw
    obtain ⟨earlier, hearlier, rfl⟩ := List.mem_map.mp hw
    exact List.not_mem_cons_of_ne_of_not_mem (hother _ hw) (h.fresh earlier (hsub.subset hearlier))
  · intro w hw
    obtain ⟨earlier, hearlier, rfl⟩ := List.mem_map.mp hw
    have hcount := unvisited_cons_add_count earlier.file.uses placed hnext
    have hunmet := h.unmet earlier (hsub.subset hearlier)
    simp only [Waiting.settle]
    omega

end step

/-! ### The placing -/

theorem perm_place (waiting : List Waiting) :
    ((place waiting).1 ++ (place waiting).2).Perm (waiting.map Waiting.file) := by
  fun_induction place waiting with
  | case1 waiting hnone => exact List.Perm.refl _
  | case2 waiting file rest hstep _ placed left hrest ih =>
    rw [hrest] at ih
    exact (ih.cons file).trans (perm_of_step? hstep)

theorem Placing.follows_place {placed : List FileId} {waiting : List Waiting} (h : Placing placed waiting) :
    Follows placed (place waiting).1 := by
  fun_induction place waiting generalizing placed with
  | case1 waiting hnone => trivial
  | case2 waiting file rest hstep _ others left hrest ih =>
    have hothers := ih (h.step hstep)
    rw [hrest] at hothers
    exact ⟨h.uses_placed hstep, hothers⟩

/-- The files are placed in the least of the orders that all of them have, if there is one. -/
theorem Placing.place_least {placed : List FileId} {waiting : List Waiting} (h : Placing placed waiting)
    {other : List LoadedFile} (hother : other.Perm (waiting.map Waiting.file)) (hfollows : Follows placed other) :
    (place waiting).1 = other ∨ Precedes (place waiting).1 other := by
  fun_induction place waiting generalizing placed other with
  | case1 waiting hnone =>
    cases other with
    | nil => exact Or.inl rfl
    | cons first others =>
      obtain ⟨w, hw, rfl⟩ := List.mem_map.mp (hother.subset List.mem_cons_self)
      exact absurd ((h.unmet_eq_zero_iff hw).mpr hfollows.1) (unmet_ne_zero_of_step?_eq_none hnone hw)
  | case2 waiting file rest hstep _ others left hrest ih =>
    have hperm := (perm_of_step? hstep).trans hother.symm
    cases other with
    | nil => exact absurd hperm.length_eq (by simp)
    | cons first others' =>
      -- the other order starts with a file that could be placed too, so it is no lesser one
      rcases h.least hstep (hother.subset List.mem_cons_self) hfollows.1 with rfl | hlt
      · have hothers := ih (h.step hstep) hperm.cons_inv.symm hfollows.2
        rw [hrest] at hothers
        exact hothers.imp (congrArg (first :: ·)) List.Lex.cons
      · exact Or.inr (List.Lex.rel hlt)

theorem Placing.exists_unplaced {placed : List FileId} {waiting : List Waiting} (h : Placing placed waiting)
    {file : LoadedFile} (hfile : file ∈ (place waiting).2) :
    ∃ used ∈ file.uses, used ∉ placed ∧ used ∉ (place waiting).1.map LoadedFile.id := by
  fun_induction place waiting generalizing placed with
  | case1 waiting hnone =>
    obtain ⟨w, hw, rfl⟩ := List.mem_map.mp hfile
    have hwaits := mt (h.unmet_eq_zero_iff hw).mpr (unmet_ne_zero_of_step?_eq_none hnone hw)
    push Not at hwaits
    obtain ⟨used, hused, hnot⟩ := hwaits
    exact ⟨used, hused, hnot, List.not_mem_nil⟩
  | case2 waiting next rest hstep _ others left hrest ih =>
    rw [hrest] at ih
    obtain ⟨used, hused, hnot, hlater⟩ := ih (h.step hstep) hfile
    obtain ⟨hne, hplaced⟩ := not_or.mp (mt List.mem_cons.mpr hnot)
    exact ⟨used, hused, hplaced, List.not_mem_cons_of_ne_of_not_mem hne hlater⟩

/-- One step of the placing leads from what waits to what waits then. -/
def Places (waiting rest : List Waiting) : Prop := ∃ file, step? waiting = some (file, rest)

theorem placing_of_places {files : List LoadedFile} {waiting : List Waiting}
    (h : Relation.ReflTransGen Places (start (batch files)) waiting) : ∃ placed, Placing placed waiting := by
  induction h with
  | refl => exact ⟨[], placing_start files⟩
  | tail _ hlast ih =>
    obtain ⟨placed, hplacing⟩ := ih
    obtain ⟨file, hstep⟩ := hlast
    exact ⟨file.id :: placed, hplacing.step hstep⟩

/-! ### Cycles -/

theorem Follows.idxOf_lt {placed : List FileId} {ordered : List LoadedFile} (h : Follows placed ordered)
    (hnodup : (ordered.map LoadedFile.id).Nodup) {file : LoadedFile} (hfile : file ∈ ordered) {used : FileId}
    (hused : used ∈ file.uses) :
    used ∈ placed ∨ (ordered.map LoadedFile.id).idxOf used < (ordered.map LoadedFile.id).idxOf file.id := by
  induction ordered generalizing placed with
  | nil => cases hfile
  | cons first rest ih =>
    rw [List.map_cons, List.nodup_cons] at hnodup
    rcases List.mem_cons.mp hfile with rfl | hfile
    · exact Or.inl (h.1 used hused)
    · have hne : first.id ≠ file.id := fun heq => hnodup.1 (heq ▸ List.mem_map_of_mem hfile)
      rw [List.map_cons, List.idxOf_cons_ne _ hne]
      by_cases hfirst : first.id = used
      · rw [hfirst, List.idxOf_cons_self]
        exact Or.inr (Nat.succ_pos _)
      · rw [List.idxOf_cons_ne _ hfirst]
        rcases ih h.2 hnodup.2 hfile with hplaced | hlt
        · exact Or.inl ((List.mem_cons.mp hplaced).resolve_left (Ne.symm hfirst))
        · exact Or.inr (Nat.succ_lt_succ hlt)

theorem IsOrder.mem_ids_iff {files ordered : List LoadedFile} (h : IsOrder files ordered) {id : FileId} :
    id ∈ ordered.map LoadedFile.id ↔ id ∈ files.map LoadedFile.id := by
  constructor
  · intro hid
    obtain ⟨file, hfile, rfl⟩ := List.mem_map.mp hid
    have hmem := List.mem_of_find?_eq_some ((h.mem file).mp hfile)
    exact List.mem_map_of_mem (List.mem_reverse.mp hmem)
  · intro hid
    obtain ⟨file, hlast⟩ := exists_last? hid
    obtain rfl := id_of_last? hlast
    exact List.mem_map_of_mem ((h.mem file).mpr hlast)

theorem IsOrder.not_cyclic {files ordered : List LoadedFile} (h : IsOrder files ordered) : ¬ Cyclic files := by
  have hstep : ∀ user used, Uses files user used →
      (ordered.map LoadedFile.id).idxOf used < (ordered.map LoadedFile.id).idxOf user := by
    rintro user used ⟨file, hlast, hused⟩
    obtain rfl := id_of_last? hlast
    exact (h.follows.idxOf_lt h.nodup ((h.mem file).mpr hlast) hused).resolve_left List.not_mem_nil
  have hpath : ∀ user used, Relation.TransGen (Uses files) user used →
      (ordered.map LoadedFile.id).idxOf used < (ordered.map LoadedFile.id).idxOf user := by
    intro user used hpath
    induction hpath with
    | single huses => exact hstep _ _ huses
    | tail _ huses ih => exact (hstep _ _ huses).trans ih
  rintro ⟨id, hcycle⟩
  exact lt_irrefl _ (hpath id id hcycle)

/-- Among finitely many items each of which has a next one there is a cycle. -/
theorem exists_transGen_self {α : Type} [DecidableEq α] {r : α → α → Prop} {items : List α} (hne : items ≠ [])
    (hnext : ∀ a ∈ items, ∃ b ∈ items, r a b) : ∃ a, Relation.TransGen r a a := by
  by_contra hnone
  push Not at hnone
  -- without a cycle the items would be well-founded, and a minimal one would have no next
  let back : {a // a ∈ items} → {a // a ∈ items} → Prop := fun b a => Relation.TransGen r a b
  have : IsTrans _ back := ⟨fun _ _ _ hab hbc => hbc.trans hab⟩
  have : Std.Irrefl back := ⟨fun a => hnone a⟩
  obtain ⟨first, hfirst⟩ := List.exists_mem_of_ne_nil items hne
  obtain ⟨last, -, hlast⟩ :=
    (Finite.wellFounded_of_trans_of_irrefl back).has_min Set.univ ⟨⟨first, hfirst⟩, trivial⟩
  obtain ⟨next, hmem, hr⟩ := hnext last last.2
  exact hlast ⟨next, hmem⟩ trivial (Relation.TransGen.single hr)

theorem exists_use_left {files : List LoadedFile} (hcomplete : Complete files) {file : LoadedFile}
    (hfile : file ∈ (place (start (batch files))).2) :
    last? files file.id = some file ∧ ∃ next ∈ (place (start (batch files))).2, next.id ∈ file.uses := by
  have hperm := perm_place (start (batch files))
  rw [map_file_start] at hperm
  have hlast := mem_values_batch.mp (hperm.subset (List.mem_append_right _ hfile))
  obtain ⟨used, hused, -, hunplaced⟩ := (placing_start files).exists_unplaced hfile
  obtain ⟨next, hnext⟩ := exists_last? (hcomplete _ _ ((uses_iff hlast).mpr hused))
  obtain rfl := id_of_last? hnext
  rcases List.mem_append.mp (hperm.symm.subset (mem_values_batch.mpr hnext)) with hplaced | hwaits
  · exact absurd (List.mem_map_of_mem hplaced) hunplaced
  · exact ⟨hlast, next, hwaits, hused⟩

theorem cyclic_of_left {files : List LoadedFile} (hcomplete : Complete files)
    (hleft : (place (start (batch files))).2 ≠ []) : Cyclic files := by
  have hne : (place (start (batch files))).2.map LoadedFile.id ≠ [] := mt List.map_eq_nil_iff.mp hleft
  refine exists_transGen_self hne fun id hid => ?_
  obtain ⟨file, hfile, rfl⟩ := List.mem_map.mp hid
  obtain ⟨hlast, next, hnext, hused⟩ := exists_use_left hcomplete hfile
  exact ⟨next.id, List.mem_map_of_mem hnext, (uses_iff hlast).mpr hused⟩

/-! ### The order -/

theorem isLeastOrder_place {files : List LoadedFile} (hleft : (place (start (batch files))).2 = []) :
    IsLeastOrder files (place (start (batch files))).1 := by
  have hplacing := placing_start files
  have hperm := perm_place (start (batch files))
  have hnodup : ((batch files).values.map LoadedFile.id).Nodup := nodup_ids (pairwise_values_batch files)
  rw [hleft, List.append_nil, map_file_start] at hperm
  refine ⟨⟨fun file => ?_, ?_, hplacing.follows_place⟩, fun other hother => ?_⟩
  · rw [hperm.mem_iff, mem_values_batch]
  · exact (hperm.map LoadedFile.id).nodup_iff.mpr hnodup
  · refine hplacing.place_least ?_ hother.follows
    rw [map_file_start, List.perm_ext_iff_of_nodup hother.nodup.of_map hnodup.of_map]
    intro file
    rw [hother.mem, mem_values_batch]

theorem order_cases (files : List LoadedFile) :
    (∃ user used, order files = .error (.unknownDependency user used) ∧ Uses files user used
      ∧ used ∉ files.map LoadedFile.id)
    ∨ (∃ cycle, order files = .error (.dependencyCycle cycle) ∧ Complete files ∧ Cyclic files)
    ∨ ∃ ordered, order files = .ok ordered ∧ Complete files ∧ IsLeastOrder files ordered := by
  unfold order
  dsimp only
  rcases hmissing : missing? (batch files) with _ | ⟨user, used⟩
  · have hcomplete := complete_of_missing?_eq_none hmissing
    dsimp only
    by_cases hleft : (place (start (batch files))).2 = []
    · rw [hleft]
      exact Or.inr (Or.inr ⟨_, rfl, hcomplete, isLeastOrder_place hleft⟩)
    · rw [if_neg (mt List.isEmpty_iff.mp hleft)]
      exact Or.inr (Or.inl ⟨_, rfl, hcomplete, cyclic_of_left hcomplete hleft⟩)
  · obtain ⟨huses, habsent⟩ := missing?_eq_some hmissing
    exact Or.inl ⟨user, used, rfl, huses, habsent⟩

theorem isLeastOrder_of_order {files ordered : List LoadedFile} (h : order files = .ok ordered) :
    IsLeastOrder files ordered := by
  rcases order_cases files with ⟨_, _, hother, -⟩ | ⟨_, hother, -⟩ | ⟨_, hother, -, hleast⟩
  · cases h.symm.trans hother
  · cases h.symm.trans hother
  · cases h.symm.trans hother
    exact hleast

theorem order_subset {files ordered : List LoadedFile} (h : order files = .ok ordered) : ordered ⊆ files := by
  intro file hfile
  have hlast := ((isLeastOrder_of_order h).1.mem file).mp hfile
  exact List.mem_reverse.mp (List.mem_of_find?_eq_some hlast)

/-- **The load order.** A use of a file that is not there is told if there is one; else a cycle if there is one;
else the files are put in the least order in which each follows all it uses. The order depends on the files that
count only, and no counter is made to fall below zero on the way to it. -/
theorem order_least (files : List LoadedFile) :
    ((∃ user used, order files = .error (.unknownDependency user used)) ↔ ¬ Complete files)
      ∧ ((∃ cycle, order files = .error (.dependencyCycle cycle)) ↔ Complete files ∧ Cyclic files)
      ∧ ((∃ ordered, order files = .ok ordered ∧ IsLeastOrder files ordered) ↔ Complete files ∧ ¬ Cyclic files)
      ∧ (∀ other, (∀ id, last? other id = last? files id) → order other = order files)
      ∧ ∀ waiting, Relation.ReflTransGen Places (start (batch files)) waiting →
        ∀ file rest, step? waiting = some (file, rest) →
          ∀ w ∈ waiting, w.file.uses.count file.id ≤ w.unmet := by
  have hcongr : ∀ other, (∀ id, last? other id = last? files id) → order other = order files := by
    intro other h
    unfold order
    rw [batch_congr h]
  have hcounters : ∀ waiting, Relation.ReflTransGen Places (start (batch files)) waiting →
      ∀ file rest, step? waiting = some (file, rest) → ∀ w ∈ waiting, w.file.uses.count file.id ≤ w.unmet := by
    intro waiting hreached file rest hstep w hw
    obtain ⟨placed, hplacing⟩ := placing_of_places hreached
    exact hplacing.count_le hstep hw
  refine ⟨?_, ?_, ?_, hcongr, hcounters⟩
  all_goals
    rcases order_cases files with ⟨user, used, horder, huses, habsent⟩ | ⟨cycle, horder, hcomplete, hcyclic⟩ |
      ⟨ordered, horder, hcomplete, hleast⟩
    all_goals rw [horder]
  · exact iff_of_true ⟨user, used, rfl⟩ fun hcomplete => habsent (hcomplete user used huses)
  · exact iff_of_false (by rintro ⟨_, _, h⟩; cases h) (not_not_intro hcomplete)
  · exact iff_of_false (by rintro ⟨_, _, h⟩; cases h) (not_not_intro hcomplete)
  · exact iff_of_false (by rintro ⟨_, h⟩; cases h) fun h => habsent (h.1 user used huses)
  · exact iff_of_true ⟨cycle, rfl⟩ ⟨hcomplete, hcyclic⟩
  · exact iff_of_false (by rintro ⟨_, h⟩; cases h) fun h => hleast.1.not_cyclic h.2
  · exact iff_of_false (by rintro ⟨_, h, -⟩; cases h) fun h => habsent (h.1 user used huses)
  · exact iff_of_false (by rintro ⟨_, h, -⟩; cases h) fun h => h.2 hcyclic
  · exact iff_of_true ⟨ordered, rfl, hleast⟩ ⟨hcomplete, hleast.1.not_cyclic⟩

end EntityModel.LoadOrder
