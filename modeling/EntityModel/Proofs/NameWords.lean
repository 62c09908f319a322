import EntityModel.Naming
import Mathlib.Data.List.SplitBy

/-!
# The words of a name

A name is cut at every space, hyphen and underscore, which are dropped, and before every upper-case character that
follows a lower-case one or a digit or ends an acronym. The pieces that are not empty are its words. Constant case
writes the words in upper case with one underscore between them (`Naming.constantCased_constantCase`): what is still to
be written follows from the words of what is still to be read, and from whether the first of them goes on with a word
that is written already (`Naming.constantCaseFrom_trimmed`).
-/

namespace EntityModel

open Text (isUpper isLower upper upperText mapCase offsetIn dropEndWhile)

/-! ### Upper case -/

namespace Text

theorem offsetIn_eq_some {runs : List (Nat × Nat × Nat × Int)} {n : Nat} {offset : Int}
    (h : offsetIn runs n = some offset) : ∃ run ∈ runs, run.1 ≤ n ∧ n ≤ run.2.1 ∧ run.2.2.2 = offset := by
  obtain ⟨run, hfind, hoffset⟩ := Option.map_eq_some_iff.mp h
  have hin := List.find?_some hfind
  simp only [Bool.and_eq_true, decide_eq_true_eq] at hin
  exact ⟨run, List.mem_of_find?_eq_some hfind, hin.1.1, hin.1.2, hoffset⟩

theorem mem_of_lookup {table : List (Nat × List Nat)} {n : Nat} {codes : List Nat}
    (h : table.lookup n = some codes) : (n, codes) ∈ table := by
  obtain ⟨first, rest, rfl, -⟩ := List.lookup_eq_some_iff.mp h
  simp

theorem toNat_underscore {n : Nat} (h : Char.ofNat n = '_') : n = 0x5F := by
  by_cases hvalid : n.isValidChar
  · have hcode : (Char.ofNat n).toNat = n := by
      rw [Char.ofNat, dif_pos hvalid]
      rfl
    rw [h] at hcode
    exact hcode.symm
  · rw [Char.ofNat, dif_neg hvalid] at h
    exact absurd h (by decide)

theorem upper_ne_nil (c : Char) : upper c ≠ [] := by
  unfold upper mapCase
  split
  · next codes hcodes =>
    have hall : ∀ e ∈ CaseTable.upperExpansions, e.2 ≠ [] := by decide +kernel
    simpa using hall _ (mem_of_lookup hcodes)
  · split <;> simp

theorem underscore_notMem_upper {c : Char} (h : c ≠ '_') : '_' ∉ upper c := by
  unfold upper mapCase
  split
  · next codes hcodes =>
    have hall : ∀ e ∈ CaseTable.upperExpansions, 0x5F ∉ e.2 := by decide +kernel
    intro hmem
    obtain ⟨n, hn, hchar⟩ := List.mem_map.mp hmem
    exact hall _ (mem_of_lookup hcodes) (toNat_underscore hchar ▸ hn)
  · split
    · next offset hoffset =>
      have hall : ∀ run ∈ CaseTable.upperOffsets,
          (0x5F : Int) < run.1 + run.2.2.2 ∨ run.2.1 + run.2.2.2 < (0x5F : Int) := by decide +kernel
      obtain ⟨run, hrun, hfirst, hlast, rfl⟩ := offsetIn_eq_some hoffset
      have hapart := hall run hrun
      rw [List.mem_singleton]
      intro hchar
      have hcode := toNat_underscore hchar.symm
      omega
    · simpa using h.symm

end Text

namespace Naming

/-! ### Words -/

/-- A character of a text and the characters beside it. -/
structure Occurrence where
  before : Option Char
  char : Char
  after : Option Char

/-- The characters of a text that stands behind `before`. -/
def occurrencesFrom (before : Option Char) : List Char → List Occurrence
  | [] => []
  | c :: rest => ⟨before, c, rest.head?⟩ :: occurrencesFrom (some c) rest

namespace Occurrence

/-- A name is cut at a space, hyphen or underscore, which is dropped. -/
def separates (x : Occurrence) : Bool := x.char ∈ [' ', '-', '_']

/-- A name is cut before an upper-case character that follows a lower-case one, a digit, or an upper-case one when it is
itself followed by a lower-case one. -/
def opens (x : Occurrence) : Bool :=
  isUpper x.char && x.before.any fun p => isLower p || p.isDigit || (isUpper p && x.after.any isLower)

end Occurrence

/-- The pieces that a text is cut into, none of them empty. -/
def cut (text : List Occurrence) : List (List Occurrence) :=
  (text.splitOnP Occurrence.separates).flatMap fun piece => piece.splitBy fun _ x => !x.opens

def words (name : String) : List String :=
  (cut (occurrencesFrom none name.toList)).map fun word => String.ofList (word.map Occurrence.char)

structure ConstantCased (name text : String) : Prop where
  /-- The words of the name in upper case, joined by single underscores. -/
  joined : text = "_".intercalate ((words name).map uppercase)
  /-- No underscore leads. -/
  leading : text.toList.head? ≠ some '_'
  /-- No underscore trails. -/
  trailing : text.toList.getLast? ≠ some '_'
  /-- No two underscores stand side by side. -/
  doubled : ¬ ['_', '_'] <:+: text.toList
  /-- All else is what the characters of the name but for those between words are in upper case. -/
  others : text.toList.filter (· ≠ '_') = upperText (name.toList.filter (· ∉ [' ', '-', '_']))

/-! ### Cutting -/

theorem splitBy_cons_of_related {α : Type} {r : α → α → Bool} {a b : α} (hr : r a b = true) (rest : List α) :
    ∃ piece pieces, (b :: rest).splitBy r = piece :: pieces ∧ (a :: b :: rest).splitBy r = (a :: piece) :: pieces := by
  obtain ⟨piece, pieces, hpieces⟩ := List.exists_cons_of_ne_nil
    (List.splitBy_ne_nil (r := r).mpr (List.cons_ne_nil b rest))
  obtain ⟨hflatten, hne, hchain, hapart⟩ := List.splitBy_eq_iff.mp hpieces
  obtain ⟨hpiece, hrest⟩ := List.forall_mem_cons.mp hchain
  obtain ⟨c, tail, rfl⟩ := List.exists_cons_of_ne_nil fun h : piece = [] => hne (h ▸ List.mem_cons_self)
  obtain ⟨rfl, -⟩ := List.cons.inj hflatten
  refine ⟨_, pieces, hpieces, List.splitBy_eq_iff.mpr ⟨?_, ?_, ?_, ?_⟩⟩
  · rw [hflatten]
    rfl
  · simpa using hne
  · exact List.forall_mem_cons.mpr ⟨List.isChain_cons_cons.mpr ⟨hr, hpiece⟩, hrest⟩
  · rcases pieces with _ | ⟨next, pieces⟩
    · simp
    · rw [List.isChain_cons_cons] at hapart ⊢
      simpa using hapart

/-- Whether a text goes on with the word before it. -/
def goesOn : List Occurrence → Bool
  | [] => false
  | x :: _ => !x.separates && !x.opens

section cut

variable {x : Occurrence} {text : List Occurrence}

theorem cut_cons_of_separates (h : x.separates = true) (text : List Occurrence) : cut (x :: text) = cut text := by
  simp [cut, List.splitOnP_cons_eq_if_modifyHead, h]

theorem cut_cons_of_not_goesOn (h : x.separates = false) (hgoes : goesOn text = false) :
    cut (x :: text) = [x] :: cut text := by
  rcases text with _ | ⟨y, text⟩
  · simp [cut, List.splitOnP_cons_eq_if_modifyHead, h, List.splitBy_of_isChain]
  by_cases hy : y.separates = true
  · simp [cut, List.splitOnP_cons_eq_if_modifyHead, h, hy, List.splitBy_of_isChain]
  · obtain ⟨piece, pieces, hpieces⟩ := List.exists_cons_of_ne_nil (List.splitOnP_ne_nil Occurrence.separates text)
    have hopens : y.opens = true := by simpa [goesOn, hy] using hgoes
    have happend := List.splitBy_append_cons (r := fun _ z : Occurrence => !z.opens) (l := [x]) (a := y) piece
      (by simp [hopens])
    simp only [cut, List.splitOnP_cons_eq_if_modifyHead, h, hy, hpieces, List.modifyHead_cons, Bool.false_eq_true,
      if_false, List.flatMap_cons]
    rw [← List.singleton_append, happend, List.append_assoc]
    rfl

theorem cut_cons_of_goesOn (h : x.separates = false) (hgoes : goesOn text = true) :
    ∃ word rest, cut text = word :: rest ∧ cut (x :: text) = (x :: word) :: rest := by
  rcases text with _ | ⟨y, text⟩
  · simp [goesOn] at hgoes
  obtain ⟨hy, hopens⟩ : y.separates = false ∧ y.opens = false := by simpa [goesOn] using hgoes
  obtain ⟨piece, pieces, hpieces⟩ := List.exists_cons_of_ne_nil (List.splitOnP_ne_nil Occurrence.separates text)
  obtain ⟨word, rest, hword, hcons⟩ := splitBy_cons_of_related (r := fun _ z : Occurrence => !z.opens) (a := x) (b := y)
    (by simp [hopens]) piece
  refine ⟨word, rest ++ pieces.flatMap fun piece => piece.splitBy fun _ z => !z.opens, ?_, ?_⟩
  · simp [cut, List.splitOnP_cons_eq_if_modifyHead, hy, hpieces, hword]
  · simp [cut, List.splitOnP_cons_eq_if_modifyHead, h, hy, hpieces, hcons]

theorem flatten_cut (text : List Occurrence) : (cut text).flatten = text.filter (!·.separates) := by
  induction text with
  | nil => rfl
  | cons x text ih =>
    rcases h : x.separates with _ | _
    · rw [List.filter_cons_of_pos (by simp [h]), ← ih]
      rcases hgoes : goesOn text with _ | _
      · rw [cut_cons_of_not_goesOn h hgoes]
        rfl
      · obtain ⟨word, rest, hcut, hcons⟩ := cut_cons_of_goesOn h hgoes
        rw [hcut, hcons]
        rfl
    · rw [cut_cons_of_separates h, List.filter_cons_of_neg (by simp [h]), ih]

theorem ne_nil_of_mem_cut {word : List Occurrence} (h : word ∈ cut text) : word ≠ [] := by
  obtain ⟨piece, -, hword⟩ := List.mem_flatMap.mp h
  exact List.ne_nil_of_mem_splitBy hword

theorem cut_cons_ne_nil (h : x.separates = false) : cut (x :: text) ≠ [] := by
  intro hnil
  have hflatten := flatten_cut (x :: text)
  rw [hnil, List.filter_cons_of_pos (by simp [h])] at hflatten
  cases hflatten

end cut

theorem map_char_occurrencesFrom (before : Option Char) (text : List Char) :
    (occurrencesFrom before text).map Occurrence.char = text := by
  induction text generalizing before with
  | nil => rfl
  | cons c rest ih => rw [occurrencesFrom, List.map_cons, ih]

/-! ### Joining -/

def written (word : List Occurrence) : List Char := word.flatMap fun x => upper x.char

/-- Words in upper case with single underscores between them. -/
def joined (words : List (List Occurrence)) : List Char := ['_'].intercalate (words.map written)

/-- Words in upper case, each behind an underscore. -/
def appended (words : List (List Occurrence)) : List Char := words.flatMap fun word => '_' :: written word

theorem joined_cons (word : List Occurrence) (words : List (List Occurrence)) :
    joined (word :: words) = written word ++ appended words := by
  induction words generalizing word with
  | nil => simp [joined, appended]
  | cons next words ih =>
    rw [joined, List.map_cons, List.map_cons, List.intercalate_cons_cons, ← List.map_cons, ← joined, ih]
    simp [appended]

theorem appended_eq_joined {words : List (List Occurrence)} (h : words ≠ []) : appended words = '_' :: joined words := by
  obtain ⟨word, rest, rfl⟩ := List.exists_cons_of_ne_nil h
  rw [joined_cons, appended, List.flatMap_cons]
  rfl

theorem written_ne_nil {word : List Occurrence} (h : word ≠ []) : written word ≠ [] := by
  obtain ⟨x, rest, rfl⟩ := List.exists_cons_of_ne_nil h
  intro hnil
  exact Text.upper_ne_nil x.char (List.append_eq_nil_iff.mp hnil).1

theorem joined_cut_ne_nil {text : List Occurrence} (h : cut text ≠ []) : joined (cut text) ≠ [] := by
  obtain ⟨word, rest, hcut⟩ := List.exists_cons_of_ne_nil h
  have hword : word ≠ [] := ne_nil_of_mem_cut (hcut ▸ List.mem_cons_self)
  rw [hcut, joined_cons]
  exact List.append_ne_nil_of_left_ne_nil (written_ne_nil hword) _

/-! ### Writing -/

/-- A text without the underscores at its end. -/
def trimmed (text : List Char) : List Char := dropEndWhile (· == '_') text

theorem trimmed_append {first : List Char} (hne : first ≠ []) (h : '_' ∉ first) (rest : List Char) :
    trimmed (first ++ rest) = first ++ trimmed rest := by
  have hkept : first.reverse.dropWhile (· == '_') = first.reverse := by
    obtain ⟨c, tail, hreverse⟩ := List.exists_cons_of_ne_nil (List.reverse_ne_nil_iff.mpr hne)
    have hc : c ≠ '_' := by
      rintro rfl
      exact h (List.mem_reverse.mp (hreverse ▸ List.mem_cons_self))
    rw [hreverse, List.dropWhile_cons_of_neg (by simpa using hc)]
  rw [trimmed, trimmed, dropEndWhile, dropEndWhile, List.reverse_append, List.dropWhile_append, hkept]
  split
  · next hempty => rw [List.isEmpty_iff.mp hempty, List.reverse_reverse, List.reverse_nil, List.append_nil]
  · rw [List.reverse_append, List.reverse_reverse]

theorem trimmed_underscore_cons (text : List Char) :
    trimmed ('_' :: text) = if trimmed text = [] then [] else '_' :: trimmed text := by
  rw [trimmed, trimmed, dropEndWhile, dropEndWhile, List.reverse_cons, List.dropWhile_append]
  rcases text.reverse.dropWhile (· == '_') with _ | ⟨c, rest⟩ <;> simp

/-- What is to be written for the rest of a text: its words, the first behind an underscore when a word is written
that it does not go on with. -/
def remaining (inWord : Bool) (text : List Occurrence) : List Char :=
  if inWord && !goesOn text then appended (cut text) else joined (cut text)

section remaining

variable {x : Occurrence} (text : List Occurrence)

theorem remaining_of_separates (h : x.separates = true) (inWord : Bool) : remaining inWord (x :: text)
    = if inWord = true ∧ joined (cut text) ≠ [] then '_' :: joined (cut text) else joined (cut text) := by
  have hgoes : goesOn (x :: text) = false := by simp [goesOn, h]
  rw [remaining, cut_cons_of_separates h, hgoes]
  rcases inWord with _ | _
  · simp
  · by_cases hcut : cut text = []
    · rw [hcut]
      rfl
    · simp [appended_eq_joined hcut, joined_cut_ne_nil hcut]

/-- A character of a word is written, and what goes on with the word behind it. -/
theorem joined_cut_cons (h : x.separates = false) : joined (cut (x :: text)) = upper x.char ++ remaining true text := by
  rcases hgoes : goesOn text with _ | _
  · rw [cut_cons_of_not_goesOn h hgoes, joined_cons, remaining, hgoes]
    simp [written]
  · obtain ⟨word, rest, hcut, hcons⟩ := cut_cons_of_goesOn h hgoes
    rw [hcons, joined_cons, remaining, hgoes, hcut]
    simp [joined_cons, written]

theorem remaining_of_not_separates (h : x.separates = false) (inWord : Bool) :
    remaining inWord (x :: text) = (if inWord && x.opens then ['_'] else []) ++ joined (cut (x :: text)) := by
  have hgoes : goesOn (x :: text) = !x.opens := by simp [goesOn, h]
  rw [remaining, hgoes, Bool.not_not]
  split
  · exact appended_eq_joined (cut_cons_ne_nil h)
  · rfl

end remaining

theorem opens_eq (before : Option Char) (c : Char) (after : Option Char) :
    (isUpper c && startsWord before after) = (Occurrence.mk before c after).opens := by
  cases before <;> rfl

theorem separates_eq (before : Option Char) (c : Char) (after : Option Char) :
    isSeparator c = (Occurrence.mk before c after).separates := by
  rw [Bool.eq_iff_iff]
  simp [isSeparator, Occurrence.separates, or_assoc]

/-- **What is written is what the rest of the text has words for**, but for the underscores at its end. -/
theorem constantCaseFrom_trimmed (before : Option Char) (inWord : Bool) (text : List Char) :
    trimmed (constantCaseFrom before inWord text) = remaining inWord (occurrencesFrom before text) := by
  induction text generalizing before inWord with
  | nil => cases inWord <;> rfl
  | cons c rest ih =>
    rw [constantCaseFrom, occurrencesFrom]
    split
    · next hseparates =>
      rw [separates_eq before c rest.head?] at hseparates
      have hrest : trimmed (constantCaseFrom (some c) false rest) = joined (cut (occurrencesFrom (some c) rest)) :=
        ih (some c) false
      rw [remaining_of_separates _ hseparates, ← hrest]
      rcases inWord with _ | _
      · simp
      · -- the underscore of a separator stays only where a word is still to come
        rw [if_pos rfl, List.singleton_append, trimmed_underscore_cons]
        split
        · next hnil => rw [if_neg (by simp [hnil]), hnil]
        · next hne => rw [if_pos ⟨rfl, hne⟩]
    · next hseparates =>
      have hc : c ≠ '_' := by
        rintro rfl
        exact hseparates rfl
      rw [Bool.not_eq_true, separates_eq before c rest.head?] at hseparates
      -- the upper case of `c` holds something and no underscore, so that nothing before it is trimmed
      have hword : trimmed (upper c ++ constantCaseFrom (some c) true rest)
          = joined (cut (⟨before, c, rest.head?⟩ :: occurrencesFrom (some c) rest)) := by
        rw [trimmed_append (Text.upper_ne_nil c) (Text.underscore_notMem_upper hc), ih, joined_cut_cons _ hseparates]
      rw [Bool.and_assoc, opens_eq, remaining_of_not_separates _ hseparates, List.append_assoc]
      split
      · rw [List.singleton_append, trimmed_underscore_cons, hword,
          if_neg (joined_cut_ne_nil (cut_cons_ne_nil hseparates)), List.singleton_append]
      · rw [List.nil_append, List.nil_append, hword]

theorem toList_constantCase (name : String) :
    (constantCase name).toList = joined (cut (occurrencesFrom none name.toList)) := by
  rw [constantCase, String.toList_ofList]
  exact constantCaseFrom_trimmed none false name.toList

/-! ### Underscores -/

section underscores

variable {text : List Char} (h : [] ∉ text.splitOn '_')

include h

theorem head?_ne_underscore : text.head? ≠ some '_' := by
  intro hhead
  obtain ⟨rest, rfl⟩ := List.head?_eq_some_iff.mp hhead
  rw [← List.nil_append ('_' :: rest), List.splitOn_append_cons_self, List.splitOn_nil] at h
  simp at h

theorem getLast?_ne_underscore : text.getLast? ≠ some '_' := by
  intro hlast
  obtain ⟨first, rfl⟩ := List.getLast?_eq_some_iff.mp hlast
  rw [List.splitOn_append_cons_self, List.splitOn_nil] at h
  simp at h

theorem not_doubled_underscore : ¬ ['_', '_'] <:+: text := by
  rintro ⟨first, rest, rfl⟩
  rw [show first ++ ['_', '_'] ++ rest = first ++ '_' :: ([] ++ '_' :: rest) by simp, List.splitOn_append_cons_self,
    List.splitOn_append_cons_self, List.splitOn_nil] at h
  simp at h

end underscores

theorem underscore_notMem_written {word text : List Occurrence} (h : word ∈ cut text) : '_' ∉ written word := by
  intro hmem
  obtain ⟨x, hx, hchar⟩ := List.mem_flatMap.mp hmem
  have hkept : x ∈ text.filter (!·.separates) := flatten_cut text ▸ List.mem_flatten_of_mem h hx
  have hne : x.char ≠ '_' := by
    intro heq
    simp [Occurrence.separates, heq] at hkept
  exact Text.underscore_notMem_upper hne hchar

theorem splitOn_joined_cut {text : List Occurrence} (h : cut text ≠ []) :
    (joined (cut text)).splitOn '_' = (cut text).map written := by
  refine List.splitOn_intercalate '_' ?_ (by simpa using h)
  simp only [List.forall_mem_map]
  exact fun word hword => underscore_notMem_written hword

theorem nil_notMem_splitOn_joined_cut {text : List Occurrence} (h : cut text ≠ []) :
    [] ∉ (joined (cut text)).splitOn '_' := by
  rw [splitOn_joined_cut h]
  intro hmem
  obtain ⟨word, hword, hnil⟩ := List.mem_map.mp hmem
  exact written_ne_nil (ne_nil_of_mem_cut hword) hnil

theorem filter_appended {words : List (List Occurrence)} (h : ∀ word ∈ words, '_' ∉ written word) :
    (appended words).filter (· ≠ '_') = written words.flatten := by
  induction words with
  | nil => rfl
  | cons word words ih =>
    obtain ⟨hword, hwords⟩ := List.forall_mem_cons.mp h
    have hkept : (written word).filter (· ≠ '_') = written word :=
      List.filter_eq_self.mpr fun c hc => by simpa using fun heq : c = '_' => hword (heq ▸ hc)
    rw [appended, List.flatMap_cons, ← appended, List.filter_append, List.filter_cons_of_neg (by simp), hkept, ih hwords,
      List.flatten_cons, written, written, written, List.flatMap_append]

theorem filter_joined_cut (text : List Occurrence) :
    (joined (cut text)).filter (· ≠ '_') = written (text.filter (!·.separates)) := by
  have happended := filter_appended fun word (hword : word ∈ cut text) => underscore_notMem_written hword
  rw [← flatten_cut, ← happended]
  by_cases hcut : cut text = []
  · rw [hcut]
    rfl
  · rw [appended_eq_joined hcut, List.filter_cons_of_neg (by simp)]

theorem toList_uppercase_ofList (word : List Occurrence) :
    (uppercase (String.ofList (word.map Occurrence.char))).toList = written word := by
  rw [uppercase, String.toList_ofList, String.toList_ofList, upperText, List.flatMap_map, written]

theorem underscores_joined_cut (text : List Occurrence) : (joined (cut text)).head? ≠ some '_'
    ∧ (joined (cut text)).getLast? ≠ some '_' ∧ ¬ ['_', '_'] <:+: joined (cut text) := by
  by_cases hcut : cut text = []
  · simp [hcut, joined]
  · have hpieces := nil_notMem_splitOn_joined_cut hcut
    exact ⟨head?_ne_underscore hpieces, getLast?_ne_underscore hpieces, not_doubled_underscore hpieces⟩

/-- **A name in constant case is its words in upper case, joined by underscores.** -/
theorem constantCased_constantCase (name : String) : ConstantCased name (constantCase name) := by
  have htext := toList_constantCase name
  obtain ⟨hleading, htrailing, hdoubled⟩ := underscores_joined_cut (occurrencesFrom none name.toList)
  refine ⟨?_, htext ▸ hleading, htext ▸ htrailing, htext ▸ hdoubled, ?_⟩
  · rw [← String.toList_inj, htext, String.toList_intercalate, words, List.map_map, List.map_map, joined]
    exact congrArg _ (List.map_congr_left fun word _ => (toList_uppercase_ofList word).symm)
  · have hchars := congrArg (List.filter (· ∉ [' ', '-', '_'])) (map_char_occurrencesFrom none name.toList)
    rw [htext, filter_joined_cut, ← hchars, List.filter_map, upperText, List.flatMap_map, written]
    simp only [Function.comp_def, decide_not]
    rfl

example : words "HTTPStatus 2Maße__alt" = ["HTTP", "Status", "2", "Maße", "alt"]
    ∧ constantCase "HTTPStatus 2Maße__alt" = "HTTP_STATUS_2_MASSE_ALT" := by decide +kernel

end Naming

end EntityModel
