import EntityModel.ForeignKey

/-!
# The texts of columns

A column is put together from up to four pieces: what an alias puts before it, the column of a field, the role of an
association, and what an alias puts behind it. Two columns whose pieces are the same in all places but one are the same
if and only if all pieces are (`ColumnParts.text_eq_iff_of_one`), and columns are different whenever their letters are
(`ColumnParts.strip_text`).
-/

namespace EntityModel

open Text (upperText dropEndWhile trim)

/-! ### Letters -/

namespace Naming

/-- The characters of a text but for those between words. -/
def strip (text : String) : List Char := text.toList.filter (!isSeparator ·)

/-- The characters of a text in upper case, but for those between words. -/
def letters (text : String) : List Char := (upperText text.toList).filter (!isSeparator ·)

theorem strip_append (a b : String) : strip (a ++ b) = strip a ++ strip b := by
  rw [strip, String.toList_append, List.filter_append]
  rfl

theorem strip_empty : strip "" = [] := rfl

theorem strip_underscore : strip "_" = [] := rfl

theorem strip_uppercase (text : String) : strip (uppercase text) = letters text := by
  rw [strip, uppercase, String.toList_ofList, letters]

theorem filter_upper_of_isSeparator {c : Char} (h : isSeparator c = true) :
    (Text.upper c).filter (!isSeparator ·) = [] := by
  simp only [isSeparator, Bool.or_eq_true, beq_iff_eq] at h
  rcases h with (rfl | rfl) | rfl <;> decide +kernel

theorem filter_constantCaseFrom (previous : Option Char) (inWord : Bool) (text : List Char) :
    (constantCaseFrom previous inWord text).filter (!isSeparator ·) = (upperText text).filter (!isSeparator ·) := by
  induction text generalizing previous inWord with
  | nil => rfl
  | cons c rest ih =>
    have hmark : ∀ marked : Bool, (if marked then ['_'] else []).filter (!isSeparator ·) = [] := by decide
    rw [constantCaseFrom, upperText, List.flatMap_cons, List.filter_append]
    split
    · next hseparator =>
      rw [List.filter_append, hmark, ih, filter_upper_of_isSeparator hseparator]
      rfl
    · rw [List.filter_append, List.filter_append, hmark, ih]
      rfl

theorem filter_dropEndWhile {p q : Char → Bool} (h : ∀ c, p c = true → q c = false) (text : List Char) :
    (dropEndWhile p text).filter q = text.filter q := by
  have hdrop : ∀ text : List Char, (text.dropWhile p).filter q = text.filter q := by
    intro text
    induction text with
    | nil => rfl
    | cons c rest ih =>
      by_cases hc : p c = true
      · rw [List.dropWhile_cons_of_pos hc, ih, List.filter_cons_of_neg (by rw [h c hc]; exact Bool.false_ne_true)]
      · rw [List.dropWhile_cons_of_neg hc]
  rw [dropEndWhile, List.filter_reverse, hdrop, List.filter_reverse, List.reverse_reverse]

theorem strip_constantCase (name : String) : strip (constantCase name) = letters name := by
  have hunderscore : ∀ c : Char, (c == '_') = true → (!isSeparator c) = false := by
    intro c hc
    rw [beq_iff_eq] at hc
    subst hc
    rfl
  rw [strip, constantCase, String.toList_ofList, filter_dropEndWhile hunderscore, filter_constantCaseFrom, letters]

/-- The letters of a role are those between the blanks at its ends. -/
def roleLetters (role : String) : List Char := letters (String.ofList (trim role.toList))

theorem strip_roleSuffix (role : String) : strip (roleSuffix role) = roleLetters role := by
  rw [roleSuffix, strip_uppercase, roleLetters, letters, letters, String.toList_ofList, String.toList_ofList]
  generalize trim role.toList = text
  induction text with
  | nil => rfl
  | cons c rest ih =>
    have hc : (Text.upper (if c = ' ' then '_' else c)).filter (!isSeparator ·)
        = (Text.upper c).filter (!isSeparator ·) := by
      split
      · next hspace =>
        rw [hspace, filter_upper_of_isSeparator rfl, filter_upper_of_isSeparator rfl]
      · rfl
    rw [List.map_cons, upperText, List.flatMap_cons, List.filter_append, hc, upperText, List.flatMap_cons,
      List.filter_append]
    exact congrArg _ ih

theorem strip_fieldColumn (trigram : Option String) (name : String) :
    strip (fieldColumn trigram name) = trigram.elim [] letters ++ letters name := by
  cases trigram with
  | none => exact strip_constantCase name
  | some trigram =>
    rw [fieldColumn, strip_append, strip_append, strip_uppercase, strip_constantCase, strip_underscore, List.append_nil,
      Option.elim_some]

theorem fieldColumn_inj {trigram : Option String} {name name' : String} :
    fieldColumn trigram name = fieldColumn trigram name' ↔ constantCase name = constantCase name' := by
  rcases trigram with _ | trigram
  · rfl
  · exact String.append_right_inj _

theorem affixColumn_none (column : String) : affixColumn column none none = column := by
  rw [affixColumn, String.empty_append, String.append_empty]

end Naming

theorem ForeignKey.column_inj {column : String} {role role' : Option String} :
    ForeignKey.column column role = ForeignKey.column column role'
      ↔ role.map Naming.roleSuffix = role'.map Naming.roleSuffix := by
  have hne : ∀ suffix, column ++ "_" ++ suffix ≠ column := fun suffix heq => by
    have hlength := congrArg String.length heq
    rw [String.length_append, String.length_append, show "_".length = 1 from rfl] at hlength
    omega
  cases role with
  | none => cases role' with
    | none => exact iff_of_true rfl rfl
    | some role' => exact iff_of_false (hne _).symm (fun h => by cases h)
  | some role => cases role' with
    | none => exact iff_of_false (hne _) (fun h => by cases h)
    | some role' =>
      rw [Option.map_some, Option.map_some, Option.some.injEq]
      exact String.append_right_inj _

/-! ### Pieces -/

/-- What a column is put together from: the column that is written for a field, or else the trigram of its class and
its name; the role of an association; and the affixes of an alias. -/
structure ColumnParts where
  written : Option String
  trigram : Option String
  name : String
  role : Option String := none
  before : Option String := none
  after : Option String := none

namespace ColumnParts

def base (x : ColumnParts) : String := x.written.getD (Naming.fieldColumn x.trigram x.name)

def text (x : ColumnParts) : String := Naming.affixColumn (ForeignKey.column x.base x.role) x.before x.after

/-- The pieces of the column, each with the underscore that joins it to the column of the field. -/
def pieces (x : ColumnParts) : List String :=
  [x.before.elim "" (Naming.constantCase · ++ "_"), x.base, x.role.elim "" ("_" ++ Naming.roleSuffix ·),
    x.after.elim "" ("_" ++ Naming.constantCase ·)]

def letters (x : ColumnParts) : List Char :=
  x.before.elim [] Naming.letters
    ++ x.written.elim (x.trigram.elim [] Naming.letters ++ Naming.letters x.name) Naming.strip
    ++ x.role.elim [] Naming.roleLetters ++ x.after.elim [] Naming.letters

theorem text_eq_join (x : ColumnParts) : x.text = String.join x.pieces := by
  obtain ⟨written, trigram, name, role, before, after⟩ := x
  simp only [pieces, String.join_cons, text, Naming.affixColumn, ForeignKey.column]
  cases role <;> cases before <;> cases after <;> simp [String.append_assoc]

theorem strip_base (x : ColumnParts) :
    Naming.strip x.base = x.written.elim (x.trigram.elim [] Naming.letters ++ Naming.letters x.name) Naming.strip := by
  rw [base]
  rcases x.written with _ | written
  · exact Naming.strip_fieldColumn x.trigram x.name
  · rfl

theorem strip_text (x : ColumnParts) : Naming.strip x.text = x.letters := by
  have hbefore : Naming.strip (x.before.elim "" (Naming.constantCase · ++ "_")) = x.before.elim [] Naming.letters := by
    rcases x.before with _ | affix
    · rfl
    · rw [Option.elim_some, Option.elim_some, Naming.strip_append, Naming.strip_constantCase, Naming.strip_underscore,
        List.append_nil]
  have hrole : Naming.strip (x.role.elim "" ("_" ++ Naming.roleSuffix ·)) = x.role.elim [] Naming.roleLetters := by
    rcases x.role with _ | role
    · rfl
    · rw [Option.elim_some, Option.elim_some, Naming.strip_append, Naming.strip_roleSuffix, Naming.strip_underscore,
        List.nil_append]
  have hafter : Naming.strip (x.after.elim "" ("_" ++ Naming.constantCase ·)) = x.after.elim [] Naming.letters := by
    rcases x.after with _ | affix
    · rfl
    · rw [Option.elim_some, Option.elim_some, Naming.strip_append, Naming.strip_constantCase, Naming.strip_underscore,
        List.nil_append]
  simp only [text_eq_join, pieces, String.join_cons, String.join_nil, Naming.strip_append, Naming.strip_empty, hbefore,
    strip_base, hrole, hafter, letters, List.append_nil, List.append_assoc]

theorem join_eq_iff_of_one {xs ys : List String} (hlength : xs.length = ys.length) {i : Nat}
    (hothers : ∀ j, j ≠ i → xs[j]? = ys[j]?) : String.join xs = String.join ys ↔ xs = ys := by
  induction xs generalizing ys i with
  | nil =>
    obtain rfl := List.length_eq_zero_iff.mp hlength.symm
    exact iff_of_true rfl rfl
  | cons x xs ih =>
    obtain ⟨y, ys, rfl⟩ := List.exists_cons_of_length_eq_add_one hlength.symm
    rw [String.join_cons, String.join_cons, List.cons.injEq]
    cases i with
    | zero =>
      obtain rfl : xs = ys := List.ext_getElem? fun j => by simpa using hothers (j + 1) (Nat.succ_ne_zero j)
      rw [String.append_left_inj, and_iff_left rfl]
    | succ i =>
      obtain rfl : x = y := by simpa using hothers 0 (Nat.succ_ne_zero i).symm
      have hrest := ih (Nat.succ.inj hlength) fun j hj => by
        simpa using hothers (j + 1) fun heq => hj (Nat.succ.inj heq)
      rw [String.append_right_inj, and_iff_right rfl, hrest]

/-- Two columns whose pieces are the same in all places but one are the same if and only if all pieces are. -/
theorem text_eq_iff_of_one {x y : ColumnParts} {i : Nat} (hothers : ∀ j, j ≠ i → x.pieces[j]? = y.pieces[j]?) :
    x.text = y.text ↔ x.pieces = y.pieces := by
  rw [text_eq_join, text_eq_join]
  exact join_eq_iff_of_one rfl hothers

end ColumnParts

end EntityModel
