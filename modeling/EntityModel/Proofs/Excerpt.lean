import EntityModel.Proofs.ParseErrors

/-!
# Excerpts under errors

The excerpt of an error is the line it starts on with a marker below. A line is told by what stands before it
(`Text.LineOf`), the places of the marker by the rendered text alone (`ParseError.Shows`). The caret stands where it
should while the number of the line fits its column, and the marker is as wide as the characters it is for where bytes
and characters agree (`Declaration.marks_of_parse_error`): the length of a span and the width of a line are counted in
bytes, the column in characters.
-/

namespace EntityModel

/-! ### Bytes of characters -/

namespace Lexeme

theorem byteLength_cons (c : Char) (text : List Char) : byteLength (c :: text) = c.utf8Size + byteLength text := rfl

theorem length_le_byteLength (text : List Char) : text.length ≤ byteLength text := by
  induction text with
  | nil => exact Nat.le_refl 0
  | cons c text ih =>
    rw [byteLength_cons, List.length_cons]
    have := c.utf8Size_pos
    omega

theorem byteLength_eq_length_iff {text : List Char} : byteLength text = text.length ↔ ∀ c ∈ text, c.utf8Size = 1 := by
  induction text with
  | nil => exact iff_of_true rfl fun _ h => absurd h List.not_mem_nil
  | cons c text ih =>
    rw [byteLength_cons, List.length_cons, List.forall_mem_cons, ← ih]
    have hc := c.utf8Size_pos
    have htext := length_le_byteLength text
    omega

theorem eq_nil_of_byteLength {text : List Char} (h : byteLength text = 0) : text = [] :=
  List.eq_nil_of_length_eq_zero (Nat.eq_zero_of_le_zero (h ▸ length_le_byteLength text))

theorem prefix_of_byteLength_le {a b text : List Char} (ha : a <+: text) (hb : b <+: text)
    (h : byteLength a ≤ byteLength b) : a <+: b := by
  rcases List.prefix_or_prefix_of_prefix ha hb with hprefix | ⟨rest, rfl⟩
  · exact hprefix
  · rw [byteLength_append] at h
    have hrest : rest = [] := eq_nil_of_byteLength (by omega)
    exact ⟨[], by rw [hrest, List.append_nil, List.append_nil]⟩

end Lexeme

open Lexeme

/-! ### Lines -/

namespace Text

theorem length_splitOn (text : List Char) : (text.splitOn '\n').length = text.count '\n' + 1 := by
  induction text with
  | nil => rfl
  | cons c text ih =>
    rw [List.splitOn_cons_eq_if_modifyHead, List.count_cons]
    cases c == '\n' with
    | true => simpa using ih
    | false => simpa using ih

/-- How a line ends: with the text, if it is not empty, or with a line feed that a carriage return may precede. -/
inductive EndsLine : List Char → List Char → Prop
  | last {line : List Char} : line ≠ [] → EndsLine line []
  | feed {line rest : List Char} : line.getLast? ≠ some '\r' → EndsLine line ('\n' :: rest)
  | returnFeed {line rest : List Char} : EndsLine line ('\r' :: '\n' :: rest)

/-- A line of a text, with what stands before it and what stands behind it. -/
structure LineOf (text : String) (before line behind : List Char) : Prop where
  text : text.toList = before ++ line ++ behind
  starts : before = [] ∨ ∃ front, before = front ++ ['\n']
  flat : '\n' ∉ line
  ends : EndsLine line behind

theorem EndsLine.isSpace {line behind : List Char} {c : Char} (h : EndsLine line (c :: behind)) :
    Piece.isSpace c = true := by
  cases h with
  | feed => rfl
  | returnFeed => rfl

theorem exists_pieces {before : List Char} (h : before = [] ∨ ∃ front, before = front ++ ['\n']) :
    ∃ pieces, pieces.length = before.count '\n'
      ∧ ∀ rest, (before ++ rest).splitOn '\n' = pieces ++ rest.splitOn '\n' := by
  rcases h with rfl | ⟨front, rfl⟩
  · exact ⟨[], rfl, fun _ => rfl⟩
  · refine ⟨front.splitOn '\n', ?_, fun rest => ?_⟩
    · rw [length_splitOn, List.count_append, List.count_singleton_self]
    · rw [List.append_assoc, List.singleton_append, List.splitOn_append_cons_self]

theorem dropReturn_append (line : List Char) : dropReturn (line ++ ['\r']) = line := by
  rw [dropReturn, List.getLast?_concat, if_pos rfl, List.dropLast_concat]

theorem LineOf.getElem?_lines {text : String} {before line behind : List Char} (h : LineOf text before line behind) :
    (lines text.toList)[before.count '\n']? = some line := by
  obtain ⟨pieces, hlength, hpieces⟩ := exists_pieces h.starts
  have hcut (piece rest : List Char) (hpiece : (line ++ behind).splitOn '\n' = piece :: rest.splitOn '\n') :
      (lines text.toList)[before.count '\n']? = some (dropReturn piece) := by
    rw [h.text, List.append_assoc, lines, hpieces, hpiece, List.dropLast_append_of_ne_nil (by simp),
      List.dropLast_cons_of_ne_nil (List.splitOn_ne_nil _ rest), List.map_append, List.append_assoc,
      List.getElem?_append_right (by simp [hlength]), List.length_map, hlength, Nat.sub_self]
    rfl
  cases h.ends with
  | last hne =>
    rw [h.text, List.append_assoc, lines, hpieces, List.append_nil, List.splitOn_eq_singleton h.flat]
    simp [hne, hlength]
  | @feed rest hlast =>
    rw [hcut line rest (List.splitOn_append_cons_self_of_not_mem h.flat rest), dropReturn, if_neg hlast]
  | @returnFeed rest =>
    have hflat : '\n' ∉ line ++ ['\r'] := by simpa using h.flat
    have hpiece : (line ++ '\r' :: '\n' :: rest).splitOn '\n' = (line ++ ['\r']) :: rest.splitOn '\n' := by
      rw [← List.splitOn_append_cons_self_of_not_mem hflat, List.append_assoc, List.singleton_append]
    rw [hcut _ rest hpiece, dropReturn_append]

/-! ### Line numbers -/

theorem toList_lineNumber (n : Nat) : (lineNumber n).toList
    = List.replicate (3 - (Nat.toDigits 10 n).length) ' ' ++ Nat.toDigits 10 n := by
  rw [lineNumber, String.toList_append, String.toList_ofList, Nat.toString_eq_ofList_toDigits, String.toList_ofList,
    String.length_ofList]

theorem length_lineNumber (n : Nat) : (lineNumber n).toList.length = max 3 (Nat.toDigits 10 n).length := by
  rw [toList_lineNumber, List.length_append, List.length_replicate]
  omega

theorem lineNumber_flat (n : Nat) : '\n' ∉ (lineNumber n).toList := by
  rw [toList_lineNumber]
  intro h
  rcases List.mem_append.mp h with h | h
  · exact absurd (List.eq_of_mem_replicate h) (by decide)
  · exact absurd (Nat.isDigit_of_mem_toDigits (by decide) (by decide) h) (by decide)

end Text

/-! ### Locations -/

namespace Location

theorem after_append (first rest : List Char) (place : Location) :
    after (byteLength first) (first ++ rest) place = first.foldl advance place := by
  induction first generalizing place with
  | nil => cases rest <;> rfl
  | cons c first ih =>
    have hc := c.utf8Size_pos
    rw [List.cons_append, byteLength_cons, after, if_neg (by omega), Nat.add_sub_cancel_left, ih, List.foldl_cons]

theorem foldl_advance_flat {text : List Char} (h : '\n' ∉ text) (place : Location) :
    text.foldl advance place = ⟨place.line, place.column + text.length⟩ := by
  induction text generalizing place with
  | nil => rfl
  | cons c text ih =>
    obtain ⟨hc, htext⟩ : '\n' ≠ c ∧ '\n' ∉ text := by simpa using h
    rw [List.foldl_cons, ih htext, advance, if_neg (Ne.symm hc), List.length_cons]
    exact congrArg (Location.mk place.line) (Nat.add_right_comm ..)

theorem line_foldl_advance (text : List Char) (place : Location) :
    (text.foldl advance place).line = place.line + text.count '\n' := by
  induction text generalizing place with
  | nil => rfl
  | cons c text ih =>
    rw [List.foldl_cons, ih, advance, List.count_cons]
    by_cases hc : c = '\n'
    · rw [if_pos hc, if_pos (beq_iff_eq.mpr hc)]
      dsimp only
      omega
    · rw [if_neg hc, if_neg (by simpa using hc)]
      rfl

/-- The place of a character: one line for each line feed before its line, one column for each character before it. -/
theorem ofOffset_eq {text : String} {before left rest : List Char} (htext : text.toList = before ++ left ++ rest)
    (hstarts : before = [] ∨ ∃ front, before = front ++ ['\n']) (hflat : '\n' ∉ left) :
    ofOffset text (byteLength (before ++ left)) = ⟨1 + before.count '\n', 1 + left.length⟩ := by
  have hcolumn : (before.foldl advance first).column = 1 := by
    rcases hstarts with rfl | ⟨front, rfl⟩
    · rfl
    · rw [List.foldl_append]
      rfl
  rw [ofOffset, htext, after_append, List.foldl_append, foldl_advance_flat hflat, hcolumn, line_foldl_advance]
  rfl

end Location

/-! ### Markers -/

/-- A span holds some characters of a line, behind others and before others, and may go on behind the line. -/
structure Span.OnLine (s : Span) (before left marked rest : List Char) : Prop where
  start : s.start = byteLength (before ++ left)
  stop : s.stop = byteLength (before ++ left ++ marked) ∨ rest = [] ∧ byteLength (before ++ left ++ marked) < s.stop

theorem Span.locate_of_lineOf {s : Span} {text : String} {before left rest behind : List Char}
    (hline : Text.LineOf text before (left ++ rest) behind) (hstart : s.start = byteLength (before ++ left)) :
    s.locate text = ⟨1 + before.count '\n', 1 + left.length⟩ := by
  have htext : text.toList = before ++ left ++ (rest ++ behind) := by
    rw [hline.text]
    simp only [List.append_assoc]
  rw [Span.locate, hstart]
  exact Location.ofOffset_eq htext hline.starts fun h => hline.flat (List.mem_append_left rest h)

namespace ParseError

/-- What is rendered above the line of an error. -/
def header (e : ParseError) (text : String) : String :=
  s!"error: {e.message}\n  --> line {(e.span.locate text).text}\n   |\n"

/-- What is rendered below the marker of an error. -/
def footer (e : ParseError) : String :=
  match e.hint with
  | some hint => s!"   = hint: {hint}\n"
  | none => ""

/-- A rendered error shows a line behind a margin, and below it, behind `lead`, a caret with tildes. -/
structure Shows (e : ParseError) (text : String) (line margin lead tildes : List Char) : Prop where
  rendered : (e.render text).toList = (e.header text).toList
    ++ (margin ++ line ++ '\n' :: (lead ++ '^' :: (tildes ++ '\n' :: e.footer.toList)))
  margin : '\n' ∉ margin
  lead : '\n' ∉ lead
  tildes : ∀ c ∈ tildes, c = '~'

/-- The caret stands under the character of the line that `left` stands before. -/
def CaretUnder (e : ParseError) (text : String) (line left : List Char) : Prop :=
  ∃ margin lead tildes, e.Shows text line margin lead tildes ∧ lead.length = margin.length + left.length

/-- Caret and tildes are as many as some characters, or there is a caret for none. -/
def MarksAll (e : ParseError) (text : String) (line marked : List Char) : Prop :=
  ∃ margin lead tildes, e.Shows text line margin lead tildes ∧ 1 + tildes.length = max 1 marked.length

section shows

variable {e : ParseError} {text : String}
  {before left marked rest behind line margin lead tildes margin' lead' tildes' : List Char}

theorem shows_render (hline : Text.LineOf text before (left ++ rest) behind)
    (hstart : e.span.start = byteLength (before ++ left)) :
    e.Shows text (left ++ rest) ((Text.lineNumber (1 + before.count '\n')).toList ++ ['|', ' '])
      ([' ', ' ', ' ', '|'] ++ List.replicate (1 + left.length) ' ')
      (List.replicate (min e.span.length (byteLength (left ++ rest) - left.length) - 1) '~') where
  rendered := by
    have hplace := Span.locate_of_lineOf hline hstart
    have hexcerpt : Text.excerpt text e.span = "   |\n" ++ Text.lineNumber (1 + before.count '\n') ++ "| "
        ++ String.ofList (left ++ rest) ++ "\n   |"
        ++ Text.marker (left ++ rest) (1 + left.length) e.span.length ++ "\n" := by
      unfold Text.excerpt
      rw [hplace]
      dsimp only
      rw [Nat.add_sub_cancel_left, hline.getElem?_lines]
      rfl
    have hrender : e.render text = s!"error: {e.message}\n  --> line {(e.span.locate text).text}\n"
        ++ Text.excerpt text e.span ++ e.footer := rfl
    rw [hrender, hexcerpt, header, Text.marker, ← byteLength_toList, String.toList_ofList, Nat.add_sub_cancel_left]
    simp [String.toList_append, toString]
  margin h := by
    rcases List.mem_append.mp h with h | h
    · exact Text.lineNumber_flat _ h
    · exact absurd h (by decide)
  lead h := by
    rcases List.mem_append.mp h with h | h
    · exact absurd h (by decide)
    · exact absurd (List.eq_of_mem_replicate h) (by decide)
  tildes _ hc := List.eq_of_mem_replicate hc

theorem append_cons_inj_of_not_mem {c : Char} {first first' last last' : List Char} (hc : c ∉ last) (hc' : c ∉ last')
    (h : first ++ c :: last = first' ++ c :: last') : first = first' ∧ last = last' := by
  rcases List.append_eq_append_iff.mp h with ⟨_ | ⟨d, more⟩, rfl, hlast⟩ | ⟨_ | ⟨d, more⟩, rfl, hlast⟩
  · exact ⟨(List.append_nil _).symm, (List.cons.inj hlast).2⟩
  · have hmem : c ∈ last := (List.cons.inj hlast).2 ▸ List.mem_append_right more List.mem_cons_self
    exact absurd hmem hc
  · exact ⟨List.append_nil _, (List.cons.inj hlast).2.symm⟩
  · have hmem : c ∈ last' := (List.cons.inj hlast).2 ▸ List.mem_append_right more List.mem_cons_self
    exact absurd hmem hc'

/-- A rendered error shows its line and the marker in one way. -/
theorem Shows.unique (h : e.Shows text line margin lead tildes) (h' : e.Shows text line margin' lead' tildes') :
    margin = margin' ∧ lead = lead' ∧ tildes = tildes' := by
  have hall := List.append_cancel_left (h.rendered.symm.trans h'.rendered)
  have hmarks : (margin ++ line ++ '\n' :: lead) ++ '^' :: tildes
      = (margin' ++ line ++ '\n' :: lead') ++ '^' :: tildes' := by
    refine (List.append_left_inj ('\n' :: e.footer.toList)).mp ?_
    simpa only [List.append_assoc, List.cons_append] using hall
  have hcaret {tildes : List Char} (htildes : ∀ c ∈ tildes, c = '~') : '^' ∉ tildes :=
    fun hmem => absurd (htildes _ hmem) (by decide)
  obtain ⟨hlines, rfl⟩ := append_cons_inj_of_not_mem (hcaret h.tildes) (hcaret h'.tildes) hmarks
  obtain ⟨hsource, rfl⟩ := append_cons_inj_of_not_mem h.lead h'.lead hlines
  exact ⟨List.append_cancel_right hsource, rfl, rfl⟩

/-- The caret stands where it should if and only if the number of the line fits its three places. -/
theorem caretUnder_iff (hline : Text.LineOf text before (left ++ rest) behind)
    (hstart : e.span.start = byteLength (before ++ left)) :
    e.CaretUnder text (left ++ rest) left ↔ 1 + before.count '\n' < 1000 := by
  have hshows := shows_render hline hstart
  have hdigits : (Nat.toDigits 10 (1 + before.count '\n')).length ≤ 3 ↔ 1 + before.count '\n' < 1000 :=
    Nat.length_toDigits_le_iff (by decide) (by decide)
  have hlead : ([' ', ' ', ' ', '|'] ++ List.replicate (1 + left.length) ' ').length = 5 + left.length := by
    rw [List.length_append, List.length_replicate]
    simp only [List.length_cons, List.length_nil]
    omega
  have hmargin : ((Text.lineNumber (1 + before.count '\n')).toList ++ ['|', ' ']).length
      = max 3 (Nat.toDigits 10 (1 + before.count '\n')).length + 2 := by
    rw [List.length_append, Text.length_lineNumber]
    rfl
  generalize (Nat.toDigits 10 (1 + before.count '\n')).length = digits at hdigits hmargin
  rw [← hdigits]
  constructor
  · rintro ⟨margin, lead, tildes, h, hunder⟩
    obtain ⟨hsame, hsame', -⟩ := h.unique hshows
    rw [hsame, hsame', hlead, hmargin] at hunder
    omega
  · intro hfits
    refine ⟨_, _, _, hshows, ?_⟩
    rw [hlead, hmargin]
    omega

/-- The marker is as wide as the characters it is for if and only if these take a byte each, and also those before them
where the span goes on behind the line. -/
theorem marksAll_iff (hline : Text.LineOf text before (left ++ marked ++ rest) behind)
    (hon : e.span.OnLine before left marked rest) (hempty : marked = [] → e.span.stop = e.span.start) :
    e.MarksAll text (left ++ marked ++ rest) marked ↔ (∀ c ∈ marked, c.utf8Size = 1)
      ∧ (byteLength (before ++ left ++ marked ++ rest) < e.span.stop → ∀ c ∈ left, c.utf8Size = 1) := by
  have hshows := shows_render (List.append_assoc left marked rest ▸ hline) hon.start
  rw [← List.append_assoc] at hshows
  have hmarks : e.MarksAll text (left ++ marked ++ rest) marked
      ↔ 1 + (min e.span.length (byteLength (left ++ marked ++ rest) - left.length) - 1) = max 1 marked.length := by
    constructor
    · rintro ⟨margin, lead, tildes, h, hall⟩
      obtain ⟨-, -, rfl⟩ := h.unique hshows
      rwa [List.length_replicate] at hall
    · intro hall
      exact ⟨_, _, _, hshows, by rwa [List.length_replicate]⟩
  rw [hmarks, ← byteLength_eq_length_iff, ← byteLength_eq_length_iff, Span.length]
  have hstart := hon.start
  have hleft := length_le_byteLength left
  have hmarked := length_le_byteLength marked
  have hnone : marked.length = 0 → e.span.stop = e.span.start := fun h => hempty (List.eq_nil_of_length_eq_zero h)
  simp only [byteLength_append] at hstart ⊢
  rcases hon.stop with hstop | ⟨rfl, hstop⟩
  · simp only [byteLength_append] at hstop
    omega
  · simp only [byteLength_append] at hstop
    have hrest : byteLength [] = 0 := rfl
    omega

end shows

end ParseError

/-- An error that starts on a line starts behind some of its characters, and its span holds some of the others. -/
theorem Span.exists_onLine {s : Span} {text piece : String} {before line behind : List Char} (hcuts : s.Cuts text piece)
    (hopen : ∀ c ∈ piece.toList.head?, Piece.isSpace c = false) (hline : Text.LineOf text before line behind)
    (hfrom : byteLength before ≤ s.start) (hto : s.start ≤ byteLength (before ++ line)) :
    ∃ left marked rest, line = left ++ marked ++ rest ∧ s.OnLine before left marked rest
      ∧ (marked = [] → s.stop = s.start) := by
  obtain ⟨front, back, rfl, hstart, hstop⟩ := hcuts
  rw [← byteLength_toList] at hstart hstop
  rw [← byteLength_toList piece] at hstop
  have htext := hline.text
  rw [String.toList_append, String.toList_append] at htext
  have hfront : front.toList <+: before ++ line ++ behind := by
    rw [← htext, List.append_assoc]
    exact List.prefix_append _ _
  obtain ⟨left, hleft⟩ : before <+: front.toList := by
    refine prefix_of_byteLength_le ?_ hfront (hstart ▸ hfrom)
    rw [List.append_assoc]
    exact List.prefix_append _ _
  obtain ⟨right, hright⟩ : front.toList <+: before ++ line :=
    prefix_of_byteLength_le hfront (List.prefix_append _ _) (hstart ▸ hto)
  rw [← hleft] at hstart hstop hright htext
  obtain rfl : left ++ right = line := by
    rw [List.append_assoc] at hright
    exact List.append_cancel_left hright
  have hrest : piece.toList ++ back.toList = right ++ behind := by
    simp only [List.append_assoc, List.append_cancel_left_eq] at htext
    exact htext
  rcases List.append_eq_append_iff.mp hrest with ⟨rest, rfl, -⟩ | ⟨more, hpiece, hbehind⟩
  -- the span ends on the line
  · refine ⟨left, piece.toList, rest, (List.append_assoc ..).symm, ⟨hstart, Or.inl ?_⟩, fun hnone => ?_⟩
    · rw [hstop, byteLength_append (before ++ left)]
    · rw [hstop, hnone, hstart]
      rfl
  -- the span has all that is left of the line
  · refine ⟨left, right, [], (List.append_nil _).symm, ⟨hstart, ?_⟩, ?_⟩
    · rw [hpiece, byteLength_append right, ← Nat.add_assoc, ← byteLength_append (before ++ left)] at hstop
      rcases more with _ | ⟨c, more⟩
      · exact Or.inl hstop
      · have hc := c.utf8Size_pos
        rw [byteLength_cons] at hstop
        exact Or.inr ⟨rfl, by omega⟩
    · rintro rfl
      rcases more with _ | ⟨c, more⟩
      · rw [hstop, hpiece, hstart]
        rfl
      -- no span starts with the end of a line
      · have hends := hline.ends
        rw [hbehind] at hends
        have hspace := hopen c (hpiece ▸ rfl)
        rw [hends.isSpace] at hspace
        cases hspace

namespace Declaration

/-- **What the excerpt of an error marks.** Of the line that an error starts on, `left` stands before the error and
`marked` is what its span holds. The line is shown with a marker below it. The caret stands under the character behind
`left` if and only if the number of the line has three digits at most. Caret and tildes are as many as the characters
of `marked` if and only if each of these takes one byte, and so does each of `left` where the span goes on behind the
line. -/
theorem marks_of_parse_error {text : String} {e : ParseError} (h : File.parse text = .error e)
    {before line behind : List Char} (hline : Text.LineOf text before line behind)
    (hfrom : byteLength before ≤ e.span.start) (hto : e.span.start ≤ byteLength (before ++ line)) :
    ∃ left marked rest, line = left ++ marked ++ rest ∧ e.span.OnLine before left marked rest
      ∧ e.span.locate text = ⟨1 + before.count '\n', 1 + left.length⟩
      ∧ (∃ margin lead tildes, e.Shows text line margin lead tildes)
      ∧ (e.CaretUnder text line left ↔ 1 + before.count '\n' < 1000)
      ∧ (e.MarksAll text line marked ↔ (∀ c ∈ marked, c.utf8Size = 1)
          ∧ (byteLength (before ++ line) < e.span.stop → ∀ c ∈ left, c.utf8Size = 1)) := by
  obtain ⟨piece, hcuts, hopen⟩ := exists_opening_of_parse h
  obtain ⟨left, marked, rest, rfl, hon, hempty⟩ := Span.exists_onLine hcuts hopen hline hfrom hto
  have hmarks := ParseError.marksAll_iff hline hon hempty
  rw [List.append_assoc] at hline
  have hcaret := ParseError.caretUnder_iff hline hon.start
  have hshows := ParseError.shows_render hline hon.start
  rw [← List.append_assoc] at hshows hcaret
  refine ⟨left, marked, rest, rfl, hon, Span.locate_of_lineOf hline hon.start, ⟨_, _, _, hshows⟩, hcaret, ?_⟩
  rwa [← List.append_assoc, ← List.append_assoc]

/-- The excerpt of a misspelt word on the second line. -/
theorem marks_of_parse_error_word :
    ∃ e, File.parse "class A \x7b\n feld B;" = .error e ∧ ∃ left marked rest,
      " feld B;".toList = left ++ marked ++ rest ∧ e.span.OnLine "class A \x7b\n".toList left marked rest
        ∧ e.CaretUnder "class A \x7b\n feld B;" " feld B;".toList left
        ∧ e.MarksAll "class A \x7b\n feld B;" " feld B;".toList marked := by
  have hparse : File.parse "class A \x7b\n feld B;"
      = .error ⟨.notInClass "A" (.ident "feld"), ⟨11, 15⟩,
        some "expected field, ref, compose, alias, values or a class setting"⟩ :=
    parse_eq_error_of_refusal? (by decide +kernel)
  have hline : Text.LineOf "class A \x7b\n feld B;" "class A \x7b\n".toList " feld B;".toList [] :=
    ⟨by decide, Or.inr ⟨"class A \x7b".toList, by decide⟩, by decide, .last (by decide)⟩
  obtain ⟨left, marked, rest, hsplit, hon, -, -, hcaret, hmarks⟩ :=
    marks_of_parse_error hparse hline (by decide) (by decide)
  have hascii : (left ++ marked ++ rest).all (fun c => c.utf8Size == 1) = true := hsplit ▸ (by decide)
  refine ⟨_, hparse, left, marked, rest, hsplit, hon, hcaret.mpr (by decide), hmarks.mpr ⟨fun c hc => ?_, ?_⟩⟩
  · have hmem : c ∈ left ++ marked ++ rest := List.mem_append_left _ (List.mem_append_right _ hc)
    exact beq_iff_eq.mp (List.all_eq_true.mp hascii c hmem)
  · exact fun hbehind => absurd hbehind (by decide)

/-- A letter of two bytes has a caret and a tilde. -/
theorem letter_marked_twice :
    ∃ e, File.parse "é" = .error e ∧ Text.LineOf "é" [] ['é'] [] ∧ e.span.OnLine [] [] ['é'] []
      ∧ ¬ e.MarksAll "é" ['é'] ['é'] := by
  have hparse : File.parse "é" = .error ⟨.unreadable "é", ⟨0, 2⟩, none⟩ :=
    parse_eq_error_of_refusal? (by decide +kernel)
  have hline : Text.LineOf "é" [] ([] ++ ['é'] ++ []) [] := ⟨by decide, Or.inl rfl, by decide, .last (by decide)⟩
  have hon : Span.OnLine ⟨0, 2⟩ [] [] ['é'] [] := ⟨rfl, Or.inl rfl⟩
  refine ⟨_, hparse, hline, hon, fun hall => ?_⟩
  obtain ⟨hascii, -⟩ := (ParseError.marksAll_iff (e := ⟨.unreadable "é", ⟨0, 2⟩, none⟩) hline hon (by simp)).mp hall
  exact absurd (hascii 'é' List.mem_cons_self) (by decide)

end Declaration

end EntityModel
