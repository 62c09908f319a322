import EntityModel.Proofs.LoadOrder
import Mathlib.Data.List.Chain

/-!
# Cycles of files

Files that are left over when no more can be placed each use another one of them. So a walk from a file to one that it
uses and on goes as long as it meets new files, and ends where it comes back to its own path: what it has passed since
is a cycle, and that is what is reported (`reported_cycle`).
-/

namespace EntityModel.LoadOrder

/-- Different files each of which uses the next one, and the last of them the first. -/
structure IsCycle (files : List LoadedFile) (ids : List FileId) : Prop where
  nonempty : ids ≠ []
  nodup : ids.Nodup
  uses : (ids ++ ids.head?.toList).IsChain (Uses files)

/-- The files that cannot be placed. -/
def leftOver (files : List LoadedFile) : List LoadedFile := (place (start (batch files))).2

/-! ### The next file -/

theorem mem_of_least? {ids : List FileId} {id : FileId} (h : least? ids = some id) : id ∈ ids := by
  induction ids generalizing id with
  | nil => cases h
  | cons first rest ih =>
    rw [least?] at h
    split at h
    · cases h
      exact List.mem_cons_self
    · next other hother =>
      split at h
      · cases h
        exact List.mem_cons_self
      · cases h
        exact List.mem_cons_of_mem _ (ih hother)

theorem exists_least? {ids : List FileId} (h : ids ≠ []) : ∃ id, least? ids = some id := by
  cases ids with
  | nil => exact absurd rfl h
  | cons first rest =>
    rw [least?]
    split
    · exact ⟨_, rfl⟩
    · split
      · exact ⟨_, rfl⟩
      · exact ⟨_, rfl⟩

theorem mem_of_fileOf? {files : List LoadedFile} {id : FileId} {file : LoadedFile} (h : fileOf? files id = some file) :
    file ∈ files ∧ file.id = id :=
  ⟨List.mem_of_find?_eq_some h, by simpa using List.find?_some h⟩

theorem isSome_fileOf? {files : List LoadedFile} {file : LoadedFile} (h : file ∈ files) :
    (fileOf? files file.id).isSome = true :=
  List.find?_isSome.mpr ⟨file, h, beq_self_eq_true _⟩

theorem exists_leastUse? {files : List LoadedFile} {file : LoadedFile} (h : ∃ next ∈ files, next.id ∈ file.uses) :
    ∃ next ∈ files, leastUse? files file = some next.id := by
  obtain ⟨used, hmem, hused⟩ := h
  have hremaining : used.id ∈ file.uses.filter fun id => (fileOf? files id).isSome :=
    List.mem_filter.mpr ⟨hused, isSome_fileOf? hmem⟩
  obtain ⟨id, hleast⟩ := exists_least? (List.ne_nil_of_mem hremaining)
  obtain ⟨next, hnext⟩ := Option.isSome_iff_exists.mp (List.mem_filter.mp (mem_of_least? hleast)).2
  obtain ⟨hfound, rfl⟩ := mem_of_fileOf? hnext
  exact ⟨next, hfound, hleast⟩

theorem mem_uses_of_leastUse? {files : List LoadedFile} {file : LoadedFile} {id : FileId}
    (h : leastUse? files file = some id) : id ∈ file.uses :=
  (List.mem_filter.mp (mem_of_least? h)).1

/-! ### The walk -/

/-- Where a walk comes back to its path, the part of the path since then is a cycle. The path holds the latest file
first, each used by the one behind it. -/
theorem isCycle_of_mem {files : List LoadedFile} {path : List FileId} {current : FileId} (hmem : current ∈ path)
    (hpath : path.Nodup) (hchain : (current :: path).IsChain fun used user => Uses files user used) :
    IsCycle files (current :: (path.takeWhile (· != current)).reverse) := by
  obtain ⟨since, before, rfl, hnew⟩ := List.eq_append_cons_of_mem hmem
  have hsince : (since ++ current :: before).takeWhile (· != current) = since := by
    rw [List.takeWhile_append_of_pos, List.takeWhile_cons_of_neg, List.append_nil]
    · simp
    · intro id hid
      exact bne_iff_ne.mpr fun hsame => hnew (hsame ▸ hid)
  rw [hsince]
  refine ⟨List.cons_ne_nil _ _, ?_, ?_⟩
  · rw [List.nodup_cons, List.mem_reverse, List.nodup_reverse]
    exact ⟨hnew, (List.nodup_append.mp hpath).1⟩
  · have hround : current :: since.reverse ++ [current] = (current :: since ++ [current]).reverse := by simp
    rw [List.head?_cons, Option.toList_some, hround, List.isChain_reverse]
    refine hchain.prefix ⟨before, ?_⟩
    simp

section walk

variable {files left : List LoadedFile} (hlast : ∀ file ∈ left, last? files file.id = some file)
  (huses : ∀ file ∈ left, ∃ next ∈ left, next.id ∈ file.uses)
include hlast huses

/-- A walk among files that each use one of them ends, and ends with a cycle. -/
theorem exists_walk {path : List FileId} {current : FileId} (hcurrent : current ∈ left.map LoadedFile.id)
    (hpath : path.Nodup) (hchain : (current :: path).IsChain fun used user => Uses files user used) :
    ∃ ids, walk left path current = some ids ∧ IsCycle files ids := by
  fun_induction walk left path current with
  | case1 path current hcontains =>
    exact ⟨_, rfl, isCycle_of_mem (List.contains_iff_mem.mp hcontains) hpath hchain⟩
  | case2 path current _ hnone =>
    obtain ⟨file, hfile, rfl⟩ := List.mem_map.mp hcurrent
    have hsome := isSome_fileOf? hfile
    rw [hnone] at hsome
    cases hsome
  | case3 path current _ file hfound hnone =>
    obtain ⟨next, -, hleast⟩ := exists_leastUse? (huses file (mem_of_fileOf? hfound).1)
    rw [hnone] at hleast
    cases hleast
  | case4 path current hfresh file hfound next hleast _ ih =>
    obtain ⟨hfile, rfl⟩ := mem_of_fileOf? hfound
    have hstep : Uses files file.id next := (uses_iff (hlast file hfile)).mpr (mem_uses_of_leastUse? hleast)
    obtain ⟨file', hnext, hleast'⟩ := exists_leastUse? (huses file hfile)
    obtain rfl := Option.some.inj (hleast.symm.trans hleast')
    refine ih (List.mem_map_of_mem hnext) (List.nodup_cons.mpr ⟨?_, hpath⟩) (List.isChain_cons_cons.mpr ⟨hstep, hchain⟩)
    exact mt List.contains_iff_mem.mpr hfresh

theorem exists_cycle? (hleft : left ≠ []) : ∃ ids, cycle? left = some ids ∧ IsCycle files ids := by
  obtain ⟨first, hfirst⟩ := exists_least? (mt List.map_eq_nil_iff.mp hleft)
  rw [cycle?, hfirst, Option.bind_some]
  exact exists_walk hlast huses (mem_of_least? hfirst) List.nodup_nil (List.isChain_singleton _)

end walk

/-! ### The report -/

theorem order_eq_dependencyCycle {files : List LoadedFile} {ids : List FileId}
    (h : order files = .error (.dependencyCycle ids)) :
    Complete files ∧ leftOver files ≠ [] ∧ ids = (cycle? (leftOver files)).getD [] := by
  unfold order at h
  dsimp only at h
  split at h
  · cases h
  · next hmissing =>
    split at h
    · cases h
    · next hleft =>
      cases h
      exact ⟨complete_of_missing?_eq_none hmissing, mt List.isEmpty_iff.mpr hleft, rfl⟩

/-- **A reported cycle is one**: different files each of which uses the next one, and the last of them the first. The
walk that finds it starts at a file and always has a next one to go to, so that it ends by coming back. -/
theorem reported_cycle {files : List LoadedFile} {ids : List FileId}
    (h : order files = .error (.dependencyCycle ids)) :
    IsCycle files ids ∧ cycle? (leftOver files) = some ids ∧ leftOver files ≠ []
      ∧ ∀ file ∈ leftOver files, ∃ next ∈ leftOver files, leastUse? (leftOver files) file = some next.id := by
  obtain ⟨hcomplete, hleft, hids⟩ := order_eq_dependencyCycle h
  have hlast : ∀ file ∈ leftOver files, last? files file.id = some file :=
    fun _ hfile => (exists_use_left hcomplete hfile).1
  have huses : ∀ file ∈ leftOver files, ∃ next ∈ leftOver files, next.id ∈ file.uses :=
    fun _ hfile => (exists_use_left hcomplete hfile).2
  obtain ⟨found, hfound, hcycle⟩ := exists_cycle? hlast huses hleft
  rw [hfound, Option.getD_some] at hids
  subst hids
  exact ⟨hcycle, hfound, hleft, fun file hfile => exists_leastUse? (huses file hfile)⟩

/-- Three files that use each other in a circle, and one before them that uses the first. -/
def circle : List LoadedFile :=
  let id (name : String) : FileId := ⟨"App", "Model", name⟩
  let file (name used : String) : LoadedFile := ⟨id name, "", { uses := [⟨id used, ⟨0, 0⟩⟩] }⟩
  [file "A" "B", file "B" "C", file "C" "D", file "D" "B"]

theorem reported_cycle_circle :
    ∃ ids, order circle = .error (.dependencyCycle ids) ∧ ids.length = 3 ∧ IsCycle circle ids := by
  have horder : order circle = .error (.dependencyCycle (["B", "C", "D"].map fun name => ⟨"App", "Model", name⟩)) := by
    decide +kernel
  exact ⟨_, horder, rfl, (reported_cycle horder).1⟩

end EntityModel.LoadOrder
