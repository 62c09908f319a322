import EntityModel.Proofs.Junction

/-!
# The lexical rules

The rules say what a text forms as a whole (`Piece.Forms`), and several of them may match texts that start at one
place. The piece that is cut off a text is the longest that any rule matches there (`Piece.Longest`), and nothing is
cut off as more than unreadable where no rule matches (`Piece.munches_first`). What a rule matches is told apart by
its first character (`Piece.Opens`), so that at most two kinds of rules compete for one place.
-/

namespace EntityModel

namespace Piece

/-! ### Rules -/

theorem ofText?_eq_some_iff {word : String} {k : Keyword} : Keyword.ofText? word = some k ↔ k.text = word := by
  constructor
  · intro h
    simpa using List.find?_some h
  · rintro rfl
    cases k <;> decide

/-- A row of decimal digits. -/
structure Digits (text : List Char) : Prop where
  ne_nil : text ≠ []
  digits : ∀ c ∈ text, c.isDigit = true

/-- How the sign of a number is written. -/
def sign (negative : Bool) : List Char := if negative then ['-'] else []

/-- The integer that digits and a sign write. -/
def signed (negative : Bool) (digits : List Char) : Int :=
  if negative then -(Text.natOfDigits digits : Int) else Text.natOfDigits digits

/-- What may stand between the quotes of a string literal: a backslash takes the next character with it, which may be
no line feed. -/
inductive Quoted : List Char → Prop
  | nil : Quoted []
  | plain {c : Char} {body : List Char} : c ≠ '"' → c ≠ '\\' → Quoted body → Quoted (c :: body)
  | escaped {c : Char} {body : List Char} : c ≠ '\n' → Quoted body → Quoted ('\\' :: c :: body)

/-- What a text forms as a whole. A reserved word has the shape of an identifier too, and an integer of more than 64
bits is matched but cannot be read. -/
inductive Forms : List Char → Piece → Prop
  | spaces {text : List Char} : text ≠ [] → (∀ c ∈ text, isSpace c = true) → Forms text .gap
  | comment {line : List Char} : '\n' ∉ line → Forms ('/' :: '/' :: line) .gap
  | keyword (word : Keyword) : Forms word.text.toList (.token (.keyword word))
  | punctuation (mark : Punctuation) : Forms mark.text.toList (.token (.punctuation mark))
  | ident {c : Char} {tail : List Char} : startsWord c = true → (∀ d ∈ tail, inWord d = true) →
      Forms (c :: tail) (.token (.ident (String.ofList (c :: tail))))
  | string {body : List Char} : Quoted body →
      Forms ('"' :: (body ++ ['"'])) (.token (.string (String.ofList (unescape body))))
  | integer {digits : List Char} (negative : Bool) : Digits digits → isInt64 (signed negative digits) = true →
      Forms (sign negative ++ digits) (.token (.integer (signed negative digits)))
  | overflow {digits : List Char} (negative : Bool) : Digits digits → isInt64 (signed negative digits) = false →
      Forms (sign negative ++ digits) .unreadable
  | number {whole part : List Char} (negative : Bool) : Digits whole → Digits part →
      Forms (sign negative ++ (whole ++ '.' :: part)) (.token (.number
        (Binary64.ofDecimal negative (Text.natOfDigits (whole ++ part)) (-part.length))))

/-- A text forms a piece before `rest`, and no rule matches more of the two. -/
structure Longest (text : List Char) (piece : Piece) (rest : List Char) : Prop where
  forms : Forms text piece
  longest : ∀ text' piece', Forms text' piece' → text' <+: text ++ rest → text'.length ≤ text.length

/-- No rule matches the front of a text. -/
def Formless (text : List Char) : Prop := ∀ text' piece, Forms text' piece → ¬ text' <+: text

/-! ### First characters -/

/-- The digits of a number, a point perhaps among them. -/
inductive Decimal : List Char → Prop
  | whole {digits : List Char} : Digits digits → Decimal digits
  | point {whole part : List Char} : Digits whole → Digits part → Decimal (whole ++ '.' :: part)

/-- What may follow the first character of what a rule matches. -/
inductive Opens : Char → List Char → Prop
  | space {c : Char} {tail : List Char} : isSpace c = true → (∀ d ∈ tail, isSpace d = true) → Opens c tail
  | comment {line : List Char} : '\n' ∉ line → Opens '/' ('/' :: line)
  | word {c : Char} {tail : List Char} : startsWord c = true → (∀ d ∈ tail, inWord d = true) → Opens c tail
  | mark {c : Char} {tail : List Char} (p : Punctuation) : p.text.toList = c :: tail → Opens c tail
  | quoted {body : List Char} : Quoted body → Opens '"' (body ++ ['"'])
  | decimal {c : Char} {tail : List Char} : Decimal (c :: tail) → Opens c tail
  | negative {tail : List Char} : Decimal tail → Opens '-' tail

theorem toList_keyword (word : Keyword) : ∃ c tail, word.text.toList = c :: tail ∧ startsWord c = true
    ∧ ∀ d ∈ tail, inWord d = true := by
  cases word <;> exact ⟨_, _, rfl, by decide, List.all_eq_true.mp (by decide)⟩

theorem toList_punctuation (p : Punctuation) :
    p.text.toList ∈ [['-', '>'], [':', ':'], [':'], [';'], [','], ['='], ['{'], ['}']] := by
  cases p <;> decide

theorem Digits.exists_cons {text : List Char} (h : Digits text) : ∃ c tail, text = c :: tail ∧ c.isDigit = true := by
  obtain ⟨c, tail, rfl⟩ := List.exists_cons_of_ne_nil h.ne_nil
  exact ⟨c, tail, rfl, h.digits c List.mem_cons_self⟩

theorem Decimal.exists_cons {text : List Char} (h : Decimal text) : ∃ c tail, text = c :: tail ∧ c.isDigit = true := by
  cases h with
  | whole hdigits => exact hdigits.exists_cons
  | point hwhole =>
    obtain ⟨c, tail, rfl, hc⟩ := hwhole.exists_cons
    exact ⟨c, _, rfl, hc⟩

theorem Decimal.opens {text : List Char} (h : Decimal text) (negative : Bool) :
    ∃ c tail, sign negative ++ text = c :: tail ∧ Opens c tail := by
  cases negative with
  | true => exact ⟨'-', text, rfl, .negative h⟩
  | false =>
    obtain ⟨c, tail, rfl, -⟩ := h.exists_cons
    exact ⟨c, tail, rfl, .decimal h⟩

theorem Forms.opens {text : List Char} {piece : Piece} (h : Forms text piece) :
    ∃ c tail, text = c :: tail ∧ Opens c tail := by
  cases h with
  | spaces hne hspace =>
    obtain ⟨c, tail, rfl⟩ := List.exists_cons_of_ne_nil hne
    obtain ⟨hc, htail⟩ := List.forall_mem_cons.mp hspace
    exact ⟨c, tail, rfl, .space hc htail⟩
  | comment hline => exact ⟨'/', _, rfl, .comment hline⟩
  | keyword word =>
    obtain ⟨c, tail, htext, hc, htail⟩ := toList_keyword word
    exact ⟨c, tail, htext, .word hc htail⟩
  | punctuation p =>
    have hne : p.text.toList ≠ [] := by cases p <;> decide
    obtain ⟨c, tail, htext⟩ := List.exists_cons_of_ne_nil hne
    exact ⟨c, tail, htext, .mark p htext⟩
  | ident hc htail => exact ⟨_, _, rfl, .word hc htail⟩
  | string hbody => exact ⟨'"', _, rfl, .quoted hbody⟩
  | integer negative hdigits => exact (Decimal.whole hdigits).opens negative
  | overflow negative hdigits => exact (Decimal.whole hdigits).opens negative
  | number negative hwhole hpart => exact (Decimal.point hwhole hpart).opens negative

section opens

variable {c : Char} {rest tail : List Char} {piece : Piece} {n : Nat}

/-- To bound what rules match, it is enough to bound what follows the first character. -/
theorem longest_of_opens (hforms : Forms (c :: rest.take n) piece)
    (hmost : ∀ tail, Opens c tail → tail <+: rest → tail.length ≤ n) :
    Longest (c :: rest.take n) piece (rest.drop n) where
  forms := hforms
  longest text' piece' h hinit := by
    obtain ⟨d, tail, rfl, hopens⟩ := h.opens
    rw [List.cons_append, List.take_append_drop, List.cons_prefix_cons] at hinit
    obtain ⟨rfl, htail⟩ := hinit
    have hle := hmost tail hopens htail
    have hlength := htail.length_le
    simp only [List.length_cons, List.length_take]
    omega

theorem formless_of_opens (hnone : ∀ tail, Opens c tail → ¬ tail <+: rest) : Formless (c :: rest) := by
  intro text piece h hinit
  obtain ⟨d, tail, rfl, hopens⟩ := h.opens
  obtain ⟨rfl, htail⟩ := List.cons_prefix_cons.mp hinit
  exact hnone tail hopens htail

theorem eq_of_isSpace (h : isSpace c = true) : c = ' ' ∨ c = '\t' ∨ c = '\r' ∨ c = '\n' := by
  simpa [isSpace, or_assoc] using h

theorem isSpace_of_startsWord (h : startsWord c = true) : isSpace c = false := by
  rw [Bool.eq_false_iff]
  intro hspace
  rcases eq_of_isSpace hspace with rfl | rfl | rfl | rfl <;> exact absurd h (by decide)

theorem isSpace_of_isDigit (h : c.isDigit = true) : isSpace c = false := by
  rw [Bool.eq_false_iff]
  intro hspace
  rcases eq_of_isSpace hspace with rfl | rfl | rfl | rfl <;> exact absurd h (by decide)

theorem isDigit_of_startsWord (h : startsWord c = true) : c.isDigit = false := by
  have h9 : '9'.val.toNat = 57 := rfl
  have hA : 'A'.val.toNat = 65 := rfl
  have ha : 'a'.val.toNat = 97 := rfl
  unfold startsWord at h
  delta Char.isAlpha Char.isUpper Char.isLower at h
  simp only [Char.isDigit, Bool.or_eq_true, Bool.and_eq_true, decide_eq_true_eq, beq_iff_eq, Bool.and_eq_false_iff,
    decide_eq_false_iff_not, UInt32.le_iff_toNat_le] at h ⊢
  rcases h with (h | h) | rfl
  · omega
  · omega
  · decide

theorem kind_of_mark {p : Punctuation} (h : p.text.toList = c :: tail) :
    isSpace c = false ∧ startsWord c = false ∧ c.isDigit = false := by
  have hall : p.text.toList.head?.all (fun d => !isSpace d && !startsWord d && !d.isDigit) = true := by
    cases p <;> decide
  simpa [h, and_assoc] using hall

theorem Decimal.isDigit (h : Decimal (c :: tail)) : c.isDigit = true := by
  obtain ⟨d, _, heq, hd⟩ := h.exists_cons
  exact (List.cons.inj heq).1 ▸ hd

theorem Opens.of_space (h : Opens c tail) (hc : isSpace c = true) : ∀ d ∈ tail, isSpace d = true := by
  cases h with
  | space _ htail => exact htail
  | word hword => simp [isSpace_of_startsWord hword] at hc
  | mark p hp => simp [(kind_of_mark hp).1] at hc
  | decimal hdecimal => simp [isSpace_of_isDigit hdecimal.isDigit] at hc
  | _ => exact absurd hc (by decide)

theorem Opens.of_word (h : Opens c tail) (hspace : isSpace c = false) (hc : startsWord c = true) :
    ∀ d ∈ tail, inWord d = true := by
  cases h with
  | space hc' => simp [hspace] at hc'
  | word _ htail => exact htail
  | mark p hp => simp [(kind_of_mark hp).2.1] at hc
  | decimal hdecimal =>
    have hdigit := hdecimal.isDigit
    simp [isDigit_of_startsWord hc] at hdigit
  | _ => exact absurd hc (by decide)

theorem Opens.of_digit (h : Opens c tail) (hspace : isSpace c = false) (hword : startsWord c = false)
    (hc : c.isDigit = true) : Decimal (c :: tail) := by
  cases h with
  | space hc' => simp [hspace] at hc'
  | word hc' => simp [hword] at hc'
  | mark p hp => simp [(kind_of_mark hp).2.2] at hc
  | decimal hdecimal => exact hdecimal
  | _ => exact absurd hc (by decide)

theorem Opens.of_sign (h : Opens c tail) (hspace : isSpace c = false) (hword : startsWord c = false)
    (hdigit : c.isDigit = false) :
    (c = '/' ∧ ∃ line, tail = '/' :: line ∧ '\n' ∉ line) ∨ (c = '"' ∧ ∃ body, tail = body ++ ['"'] ∧ Quoted body)
      ∨ (c = '-' ∧ Decimal tail) ∨ ∃ p : Punctuation, p.text.toList = c :: tail := by
  cases h with
  | space hc => simp [hspace] at hc
  | comment hline => exact .inl ⟨rfl, _, rfl, hline⟩
  | word hc => simp [hword] at hc
  | mark p hp => exact .inr (.inr (.inr ⟨p, hp⟩))
  | quoted hbody => exact .inr (.inl ⟨rfl, _, rfl, hbody⟩)
  | decimal hdecimal => simp [hdecimal.isDigit] at hdigit
  | negative hdecimal => exact .inr (.inr (.inl ⟨rfl, hdecimal⟩))

end opens

/-! ### Runs of characters -/

theorem length_le_takeWhile {p : Char → Bool} {first text : List Char} (hinit : first <+: text)
    (h : ∀ c ∈ first, p c = true) : first.length ≤ (text.takeWhile p).length := by
  obtain ⟨rest, rfl⟩ := hinit
  rw [List.takeWhile_append_of_pos h, List.length_append]
  omega

theorem mem_takeWhile {p : Char → Bool} {text : List Char} : ∀ c ∈ text.takeWhile p, p c = true :=
  List.all_eq_true.mp List.all_takeWhile

theorem take_length_takeWhile (p : Char → Bool) (text : List Char) :
    text.take (text.takeWhile p).length = text.takeWhile p :=
  (List.prefix_iff_eq_take.mp (List.takeWhile_prefix p)).symm

/-! ### Numbers -/

theorem eq_of_point {whole after text : List Char} (hwhole : Digits whole) (h : whole ++ '.' :: after <+: text) :
    text.takeWhile Char.isDigit = whole ∧ ∃ rest, text.dropWhile Char.isDigit = '.' :: rest ∧ after <+: rest := by
  obtain ⟨rest, rfl⟩ := h
  have hpoint : Char.isDigit '.' = false := by decide
  rw [List.append_assoc, List.takeWhile_append_of_pos hwhole.digits, List.dropWhile_append_of_pos hwhole.digits]
  refine ⟨by simp [hpoint], after ++ rest, by simp [hpoint], List.prefix_append after rest⟩

theorem Decimal.length_le {first text : List Char} (h : Decimal first) (hinit : first <+: text)
    (hnone : ∀ after part, text.dropWhile Char.isDigit = '.' :: after → part <+: after → ¬ Digits part) :
    first.length ≤ (text.takeWhile Char.isDigit).length := by
  cases h with
  | whole hdigits => exact length_le_takeWhile hinit hdigits.digits
  | @point whole part hwhole hpart =>
    obtain ⟨-, rest, hrest, hafter⟩ := eq_of_point hwhole hinit
    exact absurd hpart (hnone rest part hrest hafter)

theorem Decimal.length_le_of_point {first text after : List Char} (h : Decimal first) (hinit : first <+: text)
    (hafter : text.dropWhile Char.isDigit = '.' :: after) :
    first.length ≤ (text.takeWhile Char.isDigit).length + 1 + (after.takeWhile Char.isDigit).length := by
  cases h with
  | whole hdigits =>
    have hle := length_le_takeWhile hinit hdigits.digits
    omega
  | @point whole part hwhole hpart =>
    obtain ⟨hsame, rest, hrest, hbehind⟩ := eq_of_point hwhole hinit
    rw [hafter] at hrest
    obtain ⟨-, rfl⟩ := List.cons.inj hrest
    have hle := length_le_takeWhile hbehind hpart.digits
    simp only [List.length_append, List.length_cons, hsame]
    omega

theorem take_point {text after : List Char} (hafter : text.dropWhile Char.isDigit = '.' :: after) :
    text.take ((text.takeWhile Char.isDigit).length + 1 + (after.takeWhile Char.isDigit).length)
      = text.takeWhile Char.isDigit ++ '.' :: after.takeWhile Char.isDigit := by
  have hsplit := List.takeWhile_append_dropWhile (p := Char.isDigit) (l := text)
  calc text.take ((text.takeWhile Char.isDigit).length + 1 + (after.takeWhile Char.isDigit).length)
      = (text.takeWhile Char.isDigit ++ text.dropWhile Char.isDigit).take
          ((text.takeWhile Char.isDigit).length + (1 + (after.takeWhile Char.isDigit).length)) := by
        rw [hsplit, Nat.add_assoc]
    _ = text.takeWhile Char.isDigit ++ '.' :: after.takeWhile Char.isDigit := by
        rw [hafter, List.take_length_add_append, Nat.add_comm 1, List.take_succ_cons, take_length_takeWhile]

theorem Digits.forms {digits : List Char} (h : Digits digits) (negative : Bool) : Forms (sign negative ++ digits)
    (if isInt64 (signed negative digits) = true then .token (.integer (signed negative digits)) else .unreadable) := by
  split
  · next hfits => exact .integer negative h hfits
  · next hfits => exact .overflow negative h (by simpa using hfits)

theorem number_spec (negative : Bool) (text : List Char) (hdigit : text.takeWhile Char.isDigit ≠ []) :
    Forms (sign negative ++ text.take (number negative text).2) (number negative text).1
      ∧ ∀ first, Decimal first → first <+: text → first.length ≤ (number negative text).2 := by
  have hwhole : Digits (text.takeWhile Char.isDigit) := ⟨hdigit, mem_takeWhile⟩
  unfold number
  dsimp only
  split
  · next after hafter =>
    split
    · next hpart =>
      dsimp only
      rw [take_length_takeWhile]
      refine ⟨hwhole.forms negative, fun first h hinit => h.length_le hinit fun after' part hafter' hinit hdigits => ?_⟩
      rw [hafter] at hafter'
      obtain ⟨-, rfl⟩ := List.cons.inj hafter'
      have hle := length_le_takeWhile hinit hdigits.digits
      have hpos := List.length_pos_iff.mpr hdigits.ne_nil
      simp only [hpart, List.length_nil] at hle
      omega
    · next part hne =>
      dsimp only
      rw [take_point hafter]
      exact ⟨.number negative hwhole ⟨hne, mem_takeWhile⟩, fun first h hinit => h.length_le_of_point hinit hafter⟩
  · next hpoint =>
    dsimp only
    rw [take_length_takeWhile]
    exact ⟨hwhole.forms negative, fun first h hinit => h.length_le hinit fun after _ hafter =>
      absurd hafter (hpoint after)⟩

/-! ### Strings -/

theorem stringBody_of_quoted {body : List Char} (h : Quoted body) (rest : List Char) :
    stringBody (body ++ '"' :: rest) = (body, true) := by
  induction h with
  | nil => rfl
  | plain hquote hescape _ ih =>
    rw [List.cons_append, stringBody, ih]
    · exact hquote
    · exact fun _ _ h _ => hescape h
    · exact fun h _ => hescape h
  | escaped hfeed _ ih => rw [List.cons_append, List.cons_append, stringBody, if_neg hfeed, ih]

theorem quoted_of_stringBody {text body : List Char} (h : stringBody text = (body, true)) :
    Quoted body ∧ body ++ ['"'] <+: text := by
  fun_induction stringBody text generalizing body with
  | case1 => simp at h
  | case2 text =>
    obtain rfl : [] = body := by simpa using h
    exact ⟨.nil, List.prefix_append ['"'] text⟩
  | case3 => simp at h
  | case4 c text hc body' closed hbody ih =>
    obtain ⟨rfl, rfl⟩ : '\\' :: c :: body' = body ∧ closed = true := by simpa using h
    obtain ⟨hquoted, hinit⟩ := ih hbody
    refine ⟨.escaped hc hquoted, ?_⟩
    simpa [List.cons_prefix_cons] using hinit
  | case5 => simp at h
  | case6 c text hquote hescape hend body' closed hbody ih =>
    obtain ⟨rfl, rfl⟩ : c :: body' = body ∧ closed = true := by simpa using h
    obtain ⟨hquoted, hinit⟩ := ih hbody
    have hc : c ≠ '\\' := by
      intro hc
      rcases text with _ | ⟨d, rest⟩
      · exact hend hc rfl
      · exact hescape d rest hc rfl
    refine ⟨.plain hquote hc hquoted, ?_⟩
    simpa [List.cons_prefix_cons] using hinit

theorem stringBody_of_initial {body text : List Char} (h : Quoted body) (hinit : body ++ ['"'] <+: text) :
    stringBody text = (body, true) := by
  obtain ⟨rest, rfl⟩ := hinit
  rw [List.append_assoc, List.singleton_append]
  exact stringBody_of_quoted h rest

/-! ### The longest match -/

/-- What is cut off a text of a first character and a rest: the longest piece, or something unreadable where no rule
matches. -/
def Munches (c : Char) (rest : List Char) (cut : Piece × Nat) : Prop :=
  Longest (c :: rest.take cut.2) cut.1 (rest.drop cut.2) ∨ cut.1 = .unreadable ∧ Formless (c :: rest)

section munches

variable {c : Char} {rest tail : List Char}

theorem Opens.of_quote (h : Opens '"' tail) : ∃ body, tail = body ++ ['"'] ∧ Quoted body := by
  rcases h.of_sign (by decide) (by decide) (by decide) with ⟨hc, -⟩ | ⟨-, h⟩ | ⟨hc, -⟩ | ⟨p, hp⟩
  · simp at hc
  · exact h
  · simp at hc
  · have hmem := hp ▸ toList_punctuation p
    simp at hmem

theorem Opens.of_slash (h : Opens '/' tail) : ∃ line, tail = '/' :: line ∧ '\n' ∉ line := by
  rcases h.of_sign (by decide) (by decide) (by decide) with ⟨-, h⟩ | ⟨hc, -⟩ | ⟨hc, -⟩ | ⟨p, hp⟩
  · exact h
  · simp at hc
  · simp at hc
  · have hmem := hp ▸ toList_punctuation p
    simp at hmem

theorem Opens.of_minus (h : Opens '-' tail) : tail = ['>'] ∨ Decimal tail := by
  rcases h.of_sign (by decide) (by decide) (by decide) with ⟨hc, -⟩ | ⟨hc, -⟩ | ⟨-, h⟩ | ⟨p, hp⟩
  · simp at hc
  · simp at hc
  · exact .inr h
  · have hmem := hp ▸ toList_punctuation p
    exact .inl (by simpa using hmem)

theorem munches_space (hspace : isSpace c = true) (rest : List Char) :
    Munches c rest (.gap, (rest.takeWhile isSpace).length) := by
  refine .inl (longest_of_opens ?_ fun tail hopens htail => length_le_takeWhile htail (hopens.of_space hspace))
  rw [take_length_takeWhile]
  exact .spaces (by simp) (List.forall_mem_cons.mpr ⟨hspace, mem_takeWhile⟩)

theorem munches_word (hspace : isSpace c = false) (hword : startsWord c = true) (rest : List Char) :
    Munches c rest (.token (.ofWord (String.ofList (c :: rest.takeWhile inWord))), (rest.takeWhile inWord).length) := by
  refine .inl (longest_of_opens ?_ fun tail hopens htail => length_le_takeWhile htail (hopens.of_word hspace hword))
  rw [take_length_takeWhile]
  dsimp only
  unfold Token.ofWord
  split
  · next k hk =>
    have htext : k.text.toList = c :: rest.takeWhile inWord := by
      rw [ofText?_eq_some_iff.mp hk, String.toList_ofList]
    exact htext ▸ .keyword k
  · exact .ident hword mem_takeWhile

theorem munches_string (rest : List Char) : Munches '"' rest (string rest) := by
  rcases hbody : stringBody rest with ⟨body, closed⟩
  unfold string
  rw [hbody]
  cases closed with
  | true =>
    obtain ⟨hquoted, hinit⟩ := quoted_of_stringBody hbody
    have htake : rest.take (body.length + 1) = body ++ ['"'] := by
      rw [List.prefix_iff_eq_take.mp hinit]
      simp
    refine .inl (longest_of_opens (htake ▸ .string hquoted) fun tail hopens htail => ?_)
    obtain ⟨body', rfl, hquoted'⟩ := hopens.of_quote
    have hsame := stringBody_of_initial hquoted' htail
    obtain rfl : body = body' := by simpa [hbody] using hsame
    simp
  | false =>
    refine .inr ⟨rfl, formless_of_opens fun tail hopens htail => ?_⟩
    obtain ⟨body', rfl, hquoted'⟩ := hopens.of_quote
    have hsame := stringBody_of_initial hquoted' htail
    simp [hbody] at hsame

theorem munches_digit (hspace : isSpace c = false) (hword : startsWord c = false) (hdigit : c.isDigit = true)
    (rest : List Char) : Munches c rest ((number false (c :: rest)).1, (number false (c :: rest)).2 - 1) := by
  obtain ⟨hforms, hmost⟩ := number_spec false (c :: rest) (by simp [hdigit])
  have hpos : (number false (c :: rest)).2 ≠ 0 := by
    intro hzero
    have hle := hmost [c] (.whole ⟨by simp, by simpa using hdigit⟩) (by simp)
    simp [hzero] at hle
  obtain ⟨n, hn⟩ := Nat.exists_eq_succ_of_ne_zero hpos
  rw [hn] at hforms hmost ⊢
  refine .inl (longest_of_opens hforms fun tail hopens htail => ?_)
  have hle := hmost (c :: tail) (hopens.of_digit hspace hword hdigit) (by simpa using htail)
  simpa using hle

theorem munches_negative {d : Char} (hdigit : d.isDigit = true) (rest : List Char) :
    Munches '-' (d :: rest) (number true (d :: rest)) := by
  obtain ⟨hforms, hmost⟩ := number_spec true (d :: rest) (by simp [hdigit])
  refine .inl (longest_of_opens hforms fun tail hopens htail => ?_)
  rcases hopens.of_minus with rfl | hdecimal
  · obtain ⟨rfl, -⟩ := List.cons_prefix_cons.mp htail
    exact absurd hdigit (by decide)
  · exact hmost tail hdecimal htail

/-- A mark is the longest piece if no longer mark starts there. -/
theorem munches_mark {p : Punctuation} {n : Nat} (hp : p.text.toList = c :: rest.take n) (hquote : c ≠ '"')
    (hslash : c ≠ '/') (hminus : ∀ tail, c = '-' → Decimal tail → ¬ tail <+: rest)
    (hmost : ∀ q : Punctuation, ∀ tail, q.text.toList = c :: tail → tail <+: rest → tail.length ≤ n) :
    Munches c rest (.token (.punctuation p), n) := by
  obtain ⟨hspace, hword, hdigit⟩ := kind_of_mark hp
  refine .inl (longest_of_opens (hp ▸ .punctuation p) fun tail hopens htail => ?_)
  rcases hopens.of_sign hspace hword hdigit with ⟨hc, -⟩ | ⟨hc, -⟩ | ⟨hc, hdecimal⟩ | ⟨q, hq⟩
  · exact absurd hc hslash
  · exact absurd hc hquote
  · exact absurd htail (hminus tail hc hdecimal)
  · exact hmost q tail hq htail

theorem munches_single {p : Punctuation} (hp : p.text.toList = [c]) (hquote : c ≠ '"') (hslash : c ≠ '/')
    (hminus : c ≠ '-') (hpath : ∀ tail, c = ':' → rest ≠ ':' :: tail) : Munches c rest (mark p) := by
  refine munches_mark (by simpa using hp) hquote hslash (fun _ hc => absurd hc hminus) fun q tail hq htail => ?_
  have hmem := hq ▸ toList_punctuation q
  rcases tail with _ | ⟨d, tail⟩
  · simp
  · obtain ⟨rfl, rfl, rfl⟩ : c = ':' ∧ d = ':' ∧ tail = [] := by simpa [hminus] using hmem
    obtain ⟨more, rfl⟩ := htail
    exact absurd rfl (hpath more rfl)

theorem munches_comment (tail : List Char) :
    Munches '/' ('/' :: tail) (.gap, (('/' :: tail).takeWhile (· ≠ '\n')).length) := by
  refine .inl (longest_of_opens ?_ fun line hopens hline => length_le_takeWhile hline ?_)
  · rw [take_length_takeWhile, List.takeWhile_cons_of_pos (by decide)]
    refine .comment fun hfeed => ?_
    simpa using mem_takeWhile _ hfeed
  · obtain ⟨line, rfl, hfeed⟩ := hopens.of_slash
    intro d hd
    rw [decide_eq_true_eq]
    rintro rfl
    simp [hfeed] at hd

theorem munches_minus {d : Char} (hd : d ≠ '>') (hdigit : d.isDigit = false) (rest : List Char) :
    Munches '-' (d :: rest) (.unreadable, 0) := by
  refine .inr ⟨rfl, formless_of_opens fun tail hopens htail => ?_⟩
  rcases hopens.of_minus with rfl | hdecimal
  · exact hd (List.cons_prefix_cons.mp htail).1.symm
  · obtain ⟨e, more, rfl, he⟩ := hdecimal.exists_cons
    obtain ⟨rfl, -⟩ := List.cons_prefix_cons.mp htail
    simp [hdigit] at he

theorem munches_arrow (rest : List Char) : Munches '-' ('>' :: rest) (.token (.punctuation .arrow), 1) := by
  refine munches_mark (by simp [Punctuation.text]) (by decide) (by decide) (fun first _ hdecimal hfirst => ?_)
    fun q first hq hfirst => ?_
  · obtain ⟨d, more, rfl, hd⟩ := hdecimal.exists_cons
    obtain ⟨rfl, -⟩ := List.cons_prefix_cons.mp hfirst
    simp at hd
  · have hmem := hq ▸ toList_punctuation q
    obtain rfl : first = ['>'] := by simpa using hmem
    simp

theorem munches_other (hspace : isSpace c = false) (hword : startsWord c = false) (hdigit : c.isDigit = false)
    (hmark : c ∉ ['"', ':', ';', ',', '=', '{', '}']) (hslash : ∀ tail, c = '/' → rest ≠ '/' :: tail)
    (hminus : ∀ d tail, c = '-' → rest ≠ d :: tail) : Munches c rest (.unreadable, 0) := by
  refine .inr ⟨rfl, formless_of_opens fun tail hopens htail => ?_⟩
  rcases hopens.of_sign hspace hword hdigit with ⟨hc, line, rfl, -⟩ | ⟨hc, -⟩ | ⟨hc, hdecimal⟩ | ⟨p, hp⟩
  · obtain ⟨more, rfl⟩ := htail
    exact hslash _ hc rfl
  · simp [hc] at hmark
  · obtain ⟨d, tail, rfl, -⟩ := hdecimal.exists_cons
    obtain ⟨more, rfl⟩ := htail
    exact hminus d _ hc rfl
  · have hmem := hp ▸ toList_punctuation p
    simp only [List.mem_cons, List.not_mem_nil, or_false, not_or] at hmark
    obtain ⟨rfl, rfl⟩ : c = '-' ∧ tail = ['>'] := by simpa [hmark] using hmem
    obtain ⟨more, rfl⟩ := htail
    exact hminus _ _ rfl rfl

/-- **The piece that is cut off is the longest.** -/
theorem munches_first (c : Char) (rest : List Char) : Munches c rest (first c rest) := by
  unfold first
  by_cases hspace : isSpace c = true
  · rw [if_pos hspace]
    exact munches_space hspace rest
  rw [if_neg hspace]
  rw [Bool.not_eq_true] at hspace
  by_cases hword : startsWord c = true
  · rw [if_pos hword]
    exact munches_word hspace hword rest
  rw [if_neg hword]
  rw [Bool.not_eq_true] at hword
  by_cases hdigit : c.isDigit = true
  · rw [if_pos hdigit]
    exact munches_digit hspace hword hdigit rest
  rw [if_neg hdigit]
  rw [Bool.not_eq_true] at hdigit
  split
  · exact munches_string rest
  · next tail => exact munches_comment tail
  · next tail => exact munches_arrow tail
  · next d tail hd =>
    by_cases hdigit : d.isDigit = true
    · rw [if_pos hdigit]
      exact munches_negative hdigit tail
    · rw [if_neg hdigit]
      exact munches_minus hd (by simpa using hdigit) tail
  · next tail =>
    refine munches_mark (by simp [Punctuation.text]) (by decide) (by decide) (by simp) fun q first hq hfirst => ?_
    have hmem := hq ▸ toList_punctuation q
    rcases (by simpa using hmem : first = [':'] ∨ first = []) with rfl | rfl <;> simp
  · next hpath => exact munches_single rfl (by decide) (by decide) (by decide) fun tail _ h => hpath tail h
  · exact munches_single rfl (by decide) (by decide) (by decide) (by simp)
  · exact munches_single rfl (by decide) (by decide) (by decide) (by simp)
  · exact munches_single rfl (by decide) (by decide) (by decide) (by simp)
  · exact munches_single rfl (by decide) (by decide) (by decide) (by simp)
  · exact munches_single rfl (by decide) (by decide) (by decide) (by simp)
  · next hquote hcolon hsemi hcomma hassign hopen hclose hslash _ hminus _ =>
    refine munches_other hspace hword hdigit ?_ hslash hminus
    simpa using ⟨hquote, hcolon, hsemi, hcomma, hassign, hopen, hclose⟩

theorem longest_of_first {piece : Piece} (h : (first c rest).1 = piece) (hread : piece ≠ .unreadable) :
    Longest (c :: rest.take (first c rest).2) piece (rest.drop (first c rest).2) := by
  rcases munches_first c rest with hlongest | ⟨hnone, -⟩
  · rw [h] at hlongest
    exact hlongest
  · exact absurd (h.symm.trans hnone) hread

end munches

end Piece

end EntityModel
