import EntityModel.FileId
import EntityModel.SortedMap

/-!
# Laws of maps in key order

What each operation does to the values of keys, and that the entries of a map made from a list stand in
increasing order of their keys.
-/

namespace EntityModel

/-! ### The order of identities -/

theorem FileId.compare_def : (compare : FileId → FileId → Ordering) =
    compareLex (compareOn FileId.module) (compareLex (compareOn FileId.kind) (compareOn FileId.name)) :=
  rfl

instance : Std.LawfulEqOrd FileId where
  compare_self {a} := by simp [FileId.compare_def, compareLex, compareOn]
  eq_of_compare {a b} h := by
    simp only [FileId.compare_def, compareLex, compareOn, Ordering.then_eq_eq,
      Std.LawfulEqOrd.compare_eq_iff_eq] at h
    obtain ⟨hmodule, hkind, hname⟩ := h
    cases a
    cases b
    simp_all

instance : Std.TransOrd FileId := by
  rw [Std.TransOrd, FileId.compare_def]
  infer_instance

namespace SortedMap

variable {κ α β : Type} [Ord κ]

/-! ### Values of keys -/

@[simp] theorem get?_empty (key : κ) : (empty : SortedMap κ α).get? key = none := rfl

section values

variable [Std.LawfulEqOrd κ]

theorem find?_insertEntry_self (key : κ) (value : α) (entries : List (κ × α)) :
    (insertEntry key value entries).find? (fun (k, _) => compare k key == .eq) = some (key, value) := by
  induction entries with
  | nil => simp [insertEntry]
  | cons entry rest ih =>
    obtain ⟨k, v⟩ := entry
    rw [insertEntry]
    split
    · simp
    · simp
    · next hgt =>
      have hne : (compare k key == .eq) = false := by
        rw [beq_eq_false_iff_ne, ne_eq, Std.LawfulEqOrd.compare_eq_iff_eq]
        rintro rfl
        simp at hgt
      rw [List.find?_cons_of_neg (by simp [hne])]
      exact ih

theorem find?_insertEntry_of_ne {key other : κ} (value : α) (entries : List (κ × α))
    (hne : key ≠ other) :
    (insertEntry key value entries).find? (fun (k, _) => compare k other == .eq)
      = entries.find? (fun (k, _) => compare k other == .eq) := by
  have hskip (v : α) (rest : List (κ × α)) :
      ((key, v) :: rest).find? (fun (k, _) => compare k other == .eq)
        = rest.find? (fun (k, _) => compare k other == .eq) :=
    List.find?_cons_of_neg (by simpa using hne)
  induction entries with
  | nil => exact hskip value []
  | cons entry rest ih =>
    obtain ⟨k, v⟩ := entry
    rw [insertEntry]
    split
    · exact hskip value _
    · next heq =>
      obtain rfl := Std.LawfulEqOrd.eq_of_compare heq
      rw [hskip, hskip]
    · rw [List.find?_cons, List.find?_cons, ih]

@[simp] theorem get?_insert_self (m : SortedMap κ α) (key : κ) (value : α) :
    (m.insert key value).get? key = some value := by
  simp [get?, insert, find?_insertEntry_self]

theorem get?_insert_of_ne (m : SortedMap κ α) {key other : κ} (value : α) (hne : key ≠ other) :
    (m.insert key value).get? other = m.get? other := by
  simp [get?, insert, find?_insertEntry_of_ne value m.entries hne]

@[simp] theorem get?_erase_self (m : SortedMap κ α) (key : κ) : (m.erase key).get? key = none := by
  simp [get?, erase, List.find?_filter]

theorem get?_erase_of_ne (m : SortedMap κ α) {key other : κ} (hne : key ≠ other) :
    (m.erase key).get? other = m.get? other := by
  unfold get? erase
  rw [List.find?_filter]
  congr 2
  funext ⟨k, v⟩
  by_cases hk : k = other
  · subst hk
    simp [Ne.symm hne]
  · simp [hk]

theorem get?_filterKeys (m : SortedMap κ α) (p : κ → Bool) (key : κ) :
    (m.filterKeys p).get? key = if p key then m.get? key else none := by
  unfold get? filterKeys
  rw [List.find?_filter]
  by_cases hp : p key = true
  · rw [if_pos hp]
    congr 2
    funext ⟨k, v⟩
    by_cases hk : k = key
    · subst hk
      simp [hp]
    · simp [hk]
  · rw [if_neg hp, Option.map_eq_none_iff, List.find?_eq_none]
    rintro ⟨k, v⟩ -
    by_cases hk : k = key
    · subst hk
      simp [hp]
    · simp [hk]

theorem mem_entries_of_get? {m : SortedMap κ α} {key : κ} {value : α} (h : m.get? key = some value) :
    (key, value) ∈ m.entries := by
  obtain ⟨⟨k, v⟩, hfound, rfl⟩ := Option.map_eq_some_iff.mp h
  obtain rfl : k = key := by simpa using List.find?_some hfound
  exact List.mem_of_find?_eq_some hfound

theorem get?_isSome_iff {m : SortedMap κ α} {key : κ} : (m.get? key).isSome ↔ key ∈ m.keys := by
  simp only [get?, Option.isSome_map, List.find?_isSome, keys, List.mem_map, Prod.exists]
  constructor
  · rintro ⟨k, v, hmem, hk⟩
    exact ⟨k, v, hmem, by simpa using hk⟩
  · rintro ⟨k, v, hmem, rfl⟩
    exact ⟨k, v, hmem, by simp⟩

end values

/-! ### Values of all keys at once -/

/-- The map with every value replaced by what `f` makes of it. -/
def mapValues (f : κ → α → β) (m : SortedMap κ α) : SortedMap κ β :=
  ⟨m.entries.map fun (key, value) => (key, f key value)⟩

omit [Ord κ] in
@[simp] theorem keys_mapValues (f : κ → α → β) (m : SortedMap κ α) : (m.mapValues f).keys = m.keys := by
  simp [keys, mapValues, Function.comp_def]

theorem get?_mapValues [Std.LawfulEqOrd κ] (f : κ → α → β) (m : SortedMap κ α) (key : κ) :
    (m.mapValues f).get? key = (m.get? key).map (f key) := by
  obtain ⟨entries⟩ := m
  induction entries with
  | nil => rfl
  | cons entry rest ih =>
    obtain ⟨k, v⟩ := entry
    simp only [get?, mapValues, List.map_cons, List.find?_cons] at ih ⊢
    by_cases hk : k = key
    · simp [hk]
    · have hne : (compare k key == .eq) = false := by simpa using hk
      simpa only [hne] using ih

omit [Ord κ] in
theorem mapValues_eq_self_iff (f : κ → α → α) (m : SortedMap κ α) :
    m.mapValues f = m ↔ ∀ key value, (key, value) ∈ m.entries → f key value = value := by
  obtain ⟨entries⟩ := m
  rw [mapValues, SortedMap.mk.injEq]
  calc entries.map (fun (key, value) => (key, f key value)) = entries
      ↔ entries.map (fun (key, value) => (key, f key value)) = entries.map id := by rw [List.map_id]
    _ ↔ ∀ entry ∈ entries, (entry.1, f entry.1 entry.2) = entry := List.map_inj_left
    _ ↔ _ := by simp [Prod.forall]

/-! ### Order -/

/-- The entries stand in strictly increasing order of their keys. -/
def Sorted (m : SortedMap κ α) : Prop := m.entries.Pairwise fun a b => compare a.1 b.1 = .lt

theorem sorted_empty : (empty : SortedMap κ α).Sorted := List.Pairwise.nil

theorem mem_insertEntry {key : κ} {value : α} {entries : List (κ × α)} {entry : κ × α}
    (h : entry ∈ insertEntry key value entries) : entry = (key, value) ∨ entry ∈ entries := by
  induction entries with
  | nil => exact Or.inl (by simpa [insertEntry] using h)
  | cons first rest ih =>
    rw [insertEntry] at h
    split at h
    · simpa using h
    · rcases List.mem_cons.mp h with h | h
      · exact Or.inl h
      · exact Or.inr (List.mem_cons_of_mem _ h)
    · rcases List.mem_cons.mp h with h | h
      · exact Or.inr (h ▸ List.mem_cons_self)
      · exact (ih h).imp_right (List.mem_cons_of_mem _)

theorem Sorted.insert [Std.LawfulEqOrd κ] [Std.TransOrd κ] {m : SortedMap κ α} (hm : m.Sorted) (key : κ)
    (value : α) : (m.insert key value).Sorted := by
  obtain ⟨entries⟩ := m
  simp only [Sorted, SortedMap.insert] at hm ⊢
  induction entries with
  | nil => simp [insertEntry]
  | cons entry rest ih =>
    obtain ⟨hfirst, hrest⟩ := List.pairwise_cons.mp hm
    rw [insertEntry]
    split
    · next hlt =>
      refine List.pairwise_cons.mpr ⟨fun other hother => ?_, hm⟩
      rcases List.mem_cons.mp hother with rfl | hother
      · exact hlt
      · exact Std.TransCmp.lt_trans hlt (hfirst other hother)
    · next heq =>
      obtain rfl := Std.LawfulEqOrd.eq_of_compare heq
      exact List.pairwise_cons.mpr ⟨hfirst, hrest⟩
    · next hgt =>
      refine List.pairwise_cons.mpr ⟨fun other hother => ?_, ih hrest⟩
      rcases mem_insertEntry hother with rfl | hother
      · exact Std.OrientedCmp.lt_of_gt hgt
      · exact hfirst other hother

theorem sorted_foldl_insert [Std.LawfulEqOrd κ] [Std.TransOrd κ] (entries : List (κ × α))
    {m : SortedMap κ α} (hm : m.Sorted) : (entries.foldl (fun m (k, v) => m.insert k v) m).Sorted := by
  induction entries generalizing m with
  | nil => exact hm
  | cons entry rest ih => exact ih (hm.insert entry.1 entry.2)

theorem sorted_ofList [Std.LawfulEqOrd κ] [Std.TransOrd κ] (entries : List (κ × α)) :
    (ofList entries).Sorted :=
  sorted_foldl_insert entries sorted_empty

theorem Sorted.nodup_keys [Std.LawfulEqOrd κ] {m : SortedMap κ α} (hm : m.Sorted) : m.keys.Nodup := by
  refine List.pairwise_map.mpr (hm.imp fun {a b} hlt heq => ?_)
  rw [heq, Std.compare_self] at hlt
  contradiction

theorem Sorted.erase {m : SortedMap κ α} (hm : m.Sorted) (key : κ) : (m.erase key).Sorted :=
  List.Pairwise.filter _ hm

theorem Sorted.get?_eq_some_iff [Std.LawfulEqOrd κ] {m : SortedMap κ α} (hm : m.Sorted) {key : κ}
    {value : α} : m.get? key = some value ↔ (key, value) ∈ m.entries := by
  refine ⟨mem_entries_of_get?, fun hmem => ?_⟩
  obtain ⟨entries⟩ := m
  simp only [Sorted, get?] at hm hmem ⊢
  induction entries with
  | nil => simp at hmem
  | cons entry rest ih =>
    obtain ⟨hfirst, hrest⟩ := List.pairwise_cons.mp hm
    rcases List.mem_cons.mp hmem with rfl | hmem
    · simp
    · have hskip : (entry :: rest).find? (fun (k, _) => compare k key == .eq)
          = rest.find? (fun (k, _) => compare k key == .eq) :=
        List.find?_cons_of_neg (by simp [hfirst _ hmem])
      rw [hskip]
      exact ih hrest hmem

theorem Sorted.ext [Std.LawfulEqOrd κ] [Std.TransOrd κ] {m m' : SortedMap κ α} (hm : m.Sorted)
    (hm' : m'.Sorted) (h : ∀ key, m.get? key = m'.get? key) : m = m' := by
  have hnodup : ∀ {m : SortedMap κ α}, m.Sorted → m.entries.Nodup := by
    intro m hm
    refine hm.imp fun {a b} hlt heq => ?_
    rw [heq, Std.compare_self] at hlt
    contradiction
  have hmem : ∀ entry, entry ∈ m.entries ↔ entry ∈ m'.entries := by
    rintro ⟨key, value⟩
    rw [← hm.get?_eq_some_iff, ← hm'.get?_eq_some_iff, h]
  have hperm := (List.perm_ext_iff_of_nodup (hnodup hm) (hnodup hm')).mpr hmem
  obtain ⟨entries⟩ := m
  obtain ⟨entries'⟩ := m'
  refine congrArg SortedMap.mk (hperm.eq_of_pairwise (fun a b _ _ hlt hgt => ?_) hm hm')
  rw [Std.OrientedCmp.gt_of_lt hlt] at hgt
  contradiction

/-! ### Maps made from lists -/

section ofList

variable [Std.LawfulEqOrd κ]

theorem get?_foldl_insert_isSome (entries : List (κ × α)) (m : SortedMap κ α) (key : κ) :
    ((entries.foldl (fun m (k, v) => m.insert k v) m).get? key).isSome
      ↔ key ∈ entries.map Prod.fst ∨ (m.get? key).isSome := by
  induction entries generalizing m with
  | nil => simp
  | cons entry rest ih =>
    obtain ⟨k, v⟩ := entry
    rw [List.foldl_cons, ih, List.map_cons, List.mem_cons]
    by_cases hk : k = key
    · subst hk
      simp
    · rw [get?_insert_of_ne m v hk]
      simp [Ne.symm hk]

theorem get?_foldl_insert [DecidableEq κ] (entries : List (κ × α)) (m : SortedMap κ α) (key : κ) :
    (entries.foldl (fun m (k, v) => m.insert k v) m).get? key
      = ((entries.filter (·.1 = key)).getLast?.map Prod.snd).or (m.get? key) := by
  induction entries generalizing m with
  | nil => rfl
  | cons entry rest ih =>
    obtain ⟨k, v⟩ := entry
    rw [List.foldl_cons, ih]
    by_cases hk : k = key
    · subst hk
      rw [List.filter_cons_of_pos (by simp), List.getLast?_cons, get?_insert_self]
      cases (rest.filter (·.1 = k)).getLast? with
      | none => rfl
      | some last => rfl
    · rw [List.filter_cons_of_neg (by simpa using hk), get?_insert_of_ne m v hk]

/-- Of the entries of a key the last counts. -/
theorem get?_ofList [DecidableEq κ] (entries : List (κ × α)) (key : κ) :
    (ofList entries).get? key = (entries.filter (·.1 = key)).getLast?.map Prod.snd := by
  rw [ofList, get?_foldl_insert, get?_empty, Option.or_none]

@[simp] theorem mem_keys_ofList {entries : List (κ × α)} {key : κ} :
    key ∈ (ofList entries).keys ↔ key ∈ entries.map Prod.fst := by
  rw [← get?_isSome_iff, ofList, get?_foldl_insert_isSome]
  simp

end ofList

end SortedMap

end EntityModel
