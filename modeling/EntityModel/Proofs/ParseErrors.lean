import EntityModel.Proofs.Placement

/-!
# What parse errors blame

The tokens of a text up to the first piece that cannot be read are all that a parser takes (`Parser.Ahead`), and what
it refuses its input for is one of them, or what comes behind them: the piece, or the end of the text
(`Parser.Blames`). So no error speaks of what stands behind an unreadable piece (`Declaration.parse_error_placed`).
-/

namespace EntityModel

namespace Parser

variable {α β σ : Type}

/-! ### What a parser blames -/

section blames

-- the places of the tokens that may be taken, and what comes behind the tokens
variable (kind : Span → Prop) (tail : List Lexeme)

/-- Tokens of a kind, and what comes behind them. -/
def Ahead (input : List Lexeme) : Prop :=
  ∃ tokens : List (Spanned Token), input = tokens.map .token ++ tail ∧ ∀ t ∈ tokens, kind t.span

/-- An error speaks of a token of the kind or of what comes behind the tokens. -/
inductive Reports (stop : Nat) : ParseError → Prop
  | token {e : ParseError} : kind e.span → Reports stop e
  | unreadable {piece : Spanned String} {rest : List Lexeme} {hint : Option String} :
      tail = .unreadable piece :: rest → Reports stop ⟨.unreadable piece.value, piece.span, hint⟩
  | endOfInput {hint : Option String} : tail = [] → Reports stop ⟨.endOfInput, ⟨stop, stop⟩, hint⟩

/-- Only tokens of the kind are taken and what they yield is so, or the error speaks of one or of what comes behind. -/
def Settled (stop : Nat) (holds : α → Prop) {input : List Lexeme} : Except ParseError (Parsed α input) → Prop
  | .ok parsed => Ahead kind tail parsed.rest ∧ holds parsed.value
  | .error e => Reports kind tail stop e

/-- Whatever is ahead, a parser takes only tokens of the kind, and blames one or what comes behind them. -/
def Blames (p : Parser α) (holds : α → Prop) : Prop :=
  ∀ stop input, Ahead kind tail input → Settled kind tail stop holds (p stop input)

end blames

variable {kind : Span → Prop} {tail : List Lexeme} {holds : α → Prop} {result : β → Prop} {p : Parser α}

theorem blames_pure {a : α} (h : holds a) : Blames kind tail (pure a) holds :=
  fun _ _ hahead => ⟨hahead, h⟩

theorem blames_fail {cause : ParseError.Cause} {span : Span} {hint : Option String} (h : kind span) :
    Blames kind tail (fail cause span hint) holds :=
  fun _ _ _ => .token h

theorem Blames.bind {f : α → Parser β} (hp : Blames kind tail p holds)
    (hf : ∀ a, holds a → Blames kind tail (f a) result) : Blames kind tail (p >>= f) result := by
  intro stop input hahead
  change Settled kind tail stop result (andThen p f stop input)
  have hfirst := hp stop input hahead
  unfold andThen
  generalize p stop input = first at hfirst ⊢
  rcases first with e | ⟨a, rest, hrest⟩
  · exact hfirst
  · have hsecond := hf a hfirst.2 stop rest hfirst.1
    dsimp only
    generalize f a stop rest = second at hsecond ⊢
    rcases second with e | ⟨b, rest', hrest'⟩
    · exact hsecond
    · exact hsecond

theorem Blames.hinting (hp : Blames kind tail p holds) (hint : String) :
    Blames kind tail (Parser.hinting hint p) holds := by
  intro stop input hahead
  have h := hp stop input hahead
  unfold Parser.hinting
  generalize p stop input = parsed at h ⊢
  rcases parsed with e | parsed
  · cases h with
    | token h => exact .token h
    | unreadable htail => exact .unreadable htail
    | endOfInput htail => exact .endOfInput htail
  · exact h

/-- No token comes behind the tokens. -/
def Stops (tail : List Lexeme) : Prop := ∀ t rest, tail ≠ .token t :: rest

/-- What is ahead: a token of the kind, or what comes behind the tokens. -/
theorem Ahead.cases {input : List Lexeme} (h : Ahead kind tail input) :
    (∃ t rest, input = .token t :: rest ∧ kind t.span ∧ Ahead kind tail rest) ∨ input = tail := by
  obtain ⟨_ | ⟨t, tokens⟩, rfl, hall⟩ := h
  · exact Or.inr rfl
  · obtain ⟨ht, hrest⟩ := List.forall_mem_cons.mp hall
    exact Or.inl ⟨t, _, rfl, ht, tokens, rfl, hrest⟩

variable (hstops : Stops tail)
include hstops

theorem blames_next : Blames kind tail next (kind ·.span) := by
  intro stop input hahead
  rcases hahead.cases with ⟨t, rest, rfl, ht, hrest⟩ | rfl
  · exact ⟨hrest, ht⟩
  · rcases input with _ | ⟨⟨t⟩ | ⟨piece⟩, rest⟩
    · exact .endOfInput rfl
    · exact absurd rfl (hstops t rest)
    · exact .unreadable rfl

theorem blames_optional (accept : Token → Option α) :
    Blames kind tail (optional accept) fun _ => True := by
  intro stop input hahead
  rcases hahead.cases with ⟨t, rest, rfl, ht, hrest⟩ | rfl
  · unfold optional
    dsimp only
    cases accept t.value with
    | some a => exact ⟨hrest, trivial⟩
    | none => exact ⟨hahead, trivial⟩
  · rcases input with _ | ⟨⟨t⟩ | ⟨piece⟩, rest⟩
    · exact ⟨hahead, trivial⟩
    · exact absurd rfl (hstops t rest)
    · exact ⟨hahead, trivial⟩

/-- What a turn of a loop comes to keeps an invariant of its states. -/
def Turn.Keeps (inv : σ → Prop) (result : β → Prop) : Turn σ β → Prop
  | .more state => inv state
  | .done b => result b

/-- A loop blames what its turns do. -/
theorem blames_loop {turn : σ → Spanned Token → Parser (Turn σ β)} {inv : σ → Prop}
    (hturn : ∀ state t, inv state → kind t.span → Blames kind tail (turn state t) (Turn.Keeps inv result))
    {state : σ} (hstate : inv state) : Blames kind tail (loop turn state) result := by
  intro stop input hahead
  obtain ⟨n, hn⟩ : ∃ n, input.length = n := ⟨_, rfl⟩
  induction n using Nat.strongRecOn generalizing state input with
  | ind n ih =>
    rcases hahead.cases with ⟨t, rest, rfl, ht, hrest⟩ | rfl
    · have h := hturn state t hstate ht stop rest hrest
      rw [loop]
      generalize turn state t stop rest = parsed at h ⊢
      rcases parsed with e | ⟨state' | b, rest', hle⟩
      · exact h
      · have hloop := ih rest'.length (hn ▸ Nat.lt_succ_of_le hle) h.2 rest' h.1 rfl
        dsimp only
        generalize loop turn state' stop rest' = others at hloop ⊢
        rcases others with e | ⟨b, last, hlast⟩
        · exact hloop
        · exact hloop
      · exact h
    · rcases input with _ | ⟨⟨t⟩ | ⟨piece⟩, rest⟩
      · rw [loop]
        exact .endOfInput rfl
      · exact absurd rfl (hstops t rest)
      · rw [loop]
        exact .unreadable rfl

/-! ### Single tokens -/

theorem blames_token (expected : Token) : Blames kind tail (token expected) kind := by
  refine (blames_next hstops).bind fun t ht => ?_
  split
  · exact blames_pure ht
  · exact blames_fail ht

theorem blames_semi (hint : String) : Blames kind tail (semi hint) fun _ => True :=
  ((blames_token hstops _).hinting hint).bind fun _ _ => blames_pure trivial

theorem blames_ident : Blames kind tail ident (kind ·.span) := by
  refine (blames_next hstops).bind fun t ht => ?_
  split
  · exact blames_pure ht
  · exact blames_fail ht

theorem blames_string : Blames kind tail string fun _ => True := by
  refine (blames_next hstops).bind fun t ht => ?_
  split
  · exact blames_pure trivial
  · exact blames_fail ht

theorem blames_literal : Blames kind tail literal fun _ => True := by
  refine (blames_next hstops).bind fun t ht => ?_
  split
  · exact blames_pure trivial
  · exact blames_fail ht

theorem blames_size : Blames kind tail size fun _ => True := by
  refine (blames_next hstops).bind fun t ht => ?_
  split
  · split
    · exact blames_pure trivial
    · exact blames_fail ht
  · exact blames_fail ht

end Parser

/-! ### Declarations -/

namespace Declaration

open EntityModel.Parser

variable {kind : Span → Prop} {tail : List Lexeme} (hstops : Stops tail)
include hstops

theorem blames_parseUses (start : Span) : Blames kind tail (parseUses start) fun _ => True := by
  refine (blames_ident hstops).bind fun module _ => (blames_token hstops _).bind fun _ _ => ?_
  refine (blames_ident hstops).bind fun kind _ => (blames_token hstops _).bind fun _ _ => ?_
  exact (blames_ident hstops).bind fun name _ => (blames_semi hstops _).bind fun _ _ => blames_pure trivial

theorem blames_domainTurn (start : Span) (domain : Domain) {t : Spanned Token} (ht : kind t.span) :
    Blames kind tail (domainTurn start domain t) (Turn.Keeps (fun _ => True) fun _ => True) := by
  unfold domainTurn
  dsimp only
  split
  · exact blames_pure trivial
  · exact (blames_string hstops).bind fun _ _ => (blames_semi hstops _).bind fun _ _ => blames_pure trivial
  · exact (blames_size hstops).bind fun _ _ => (blames_semi hstops _).bind fun _ _ => blames_pure trivial
  · exact (blames_size hstops).bind fun _ _ => (blames_semi hstops _).bind fun _ _ => blames_pure trivial
  · refine (blames_ident hstops).bind fun target htarget => (blames_token hstops _).bind fun _ _ => ?_
    refine (blames_string hstops).bind fun type _ => ?_
    split
    -- a target that is mapped again is blamed after its type has been read
    · exact blames_fail htarget
    · exact (blames_semi hstops _).bind fun _ _ => blames_pure trivial
  · exact blames_fail ht

theorem blames_parseDomain (start : Span) : Blames kind tail (parseDomain start) fun _ => True := by
  refine (blames_ident hstops).bind fun name _ => (blames_token hstops _).bind fun _ _ => ?_
  exact blames_loop hstops (fun domain _ _ ht => blames_domainTurn hstops start domain ht) trivial

/-- Modifiers that stand where tokens of a kind do. -/
abbrev Stand (kind : Span → Prop) (written : List (Spanned Modifier)) : Prop := ∀ m ∈ written, kind m.span

theorem blames_modifierTurn {written : List (Spanned Modifier)} (hwritten : Stand kind written) {t : Spanned Token}
    (ht : kind t.span) :
    Blames kind tail (modifierTurn written t) (Turn.Keeps (Stand kind) fun parsed => Stand kind parsed.1) := by
  have hmore (m : Modifier) : Stand kind (written ++ [⟨m, t.span⟩]) :=
    List.forall_mem_append.mpr ⟨hwritten, List.forall_mem_singleton.mpr ht⟩
  unfold modifierTurn
  dsimp only
  split
  · exact blames_pure hwritten
  · exact blames_pure (hmore _)
  · exact blames_pure (hmore _)
  · exact blames_pure (hmore _)
  · exact blames_pure (hmore _)
  · exact (blames_literal hstops).bind fun _ _ => blames_pure (hmore _)
  · exact (blames_string hstops).bind fun _ _ => blames_pure (hmore _)
  · exact (blames_string hstops).bind fun _ _ => blames_pure (hmore _)
  · exact (blames_string hstops).bind fun _ _ => blames_pure (hmore _)
  · exact blames_fail ht

theorem blames_parseModifiers : Blames kind tail parseModifiers fun parsed => Stand kind parsed.1 :=
  blames_loop hstops (fun _ _ hwritten ht => blames_modifierTurn hstops hwritten ht)
    fun _ h => absurd h List.not_mem_nil

omit hstops in
theorem blames_applyModifiers {α : Type} (of : PropertyKind) (apply : α → Modifier → α)
    {written : List (Spanned Modifier)} (hwritten : Stand kind written) (property : α) :
    Blames kind tail (applyModifiers of apply written property) fun _ => True := by
  induction written generalizing property with
  | nil => exact blames_pure trivial
  | cons m written ih =>
    obtain ⟨hm, hrest⟩ := List.forall_mem_cons.mp hwritten
    unfold applyModifiers
    split
    · exact ih hrest _
    · exact blames_fail hm

theorem blames_parseField (start : Span) : Blames kind tail (parseField start) fun _ => True := by
  refine (blames_ident hstops).bind fun name _ => ((blames_token hstops _).hinting _).bind fun _ _ => ?_
  refine (blames_ident hstops).bind fun domain _ => (blames_parseModifiers hstops).bind fun parsed hwritten => ?_
  exact blames_applyModifiers _ _ hwritten _

theorem blames_parseAssociation (start : Span) : Blames kind tail (parseAssociation start) fun _ => True := by
  refine (blames_ident hstops).bind fun name _ => ((blames_token hstops _).hinting _).bind fun _ _ => ?_
  refine (blames_ident hstops).bind fun target _ => (blames_parseModifiers hstops).bind fun parsed hwritten => ?_
  exact blames_applyModifiers _ _ hwritten _

theorem blames_parseComposition (start : Span) : Blames kind tail (parseComposition start) fun _ => True := by
  refine (blames_ident hstops).bind fun name _ => ((blames_token hstops _).hinting _).bind fun _ _ => ?_
  refine (blames_ident hstops).bind fun target _ => (blames_optional hstops _).bind fun written _ => ?_
  exact (blames_parseModifiers hstops).bind fun parsed hwritten => blames_applyModifiers _ _ hwritten _

theorem blames_parseAlias (start : Span) : Blames kind tail (parseAlias start) fun _ => True :=
  (blames_ident hstops).bind fun _ _ => (blames_parseModifiers hstops).bind fun _ hwritten =>
    blames_applyModifiers _ _ hwritten _

theorem blames_rowValueTurn (values : List (Spanned String × Spanned Literal)) {t : Spanned Token}
    (ht : kind t.span) :
    Blames kind tail (rowValueTurn values t) (Turn.Keeps (fun _ => True) fun _ => True) := by
  unfold rowValueTurn
  split
  · exact blames_pure trivial
  · refine ((blames_token hstops _).hinting _).bind fun _ _ => (blames_literal hstops).bind fun value _ => ?_
    refine (blames_next hstops).bind fun after hafter => ?_
    split
    · exact blames_pure trivial
    · exact blames_pure trivial
    · exact blames_fail hafter
  · exact blames_fail ht

theorem blames_rowTurn (rows : List Row) {t : Spanned Token} (ht : kind t.span) :
    Blames kind tail (rowTurn rows t) (Turn.Keeps (fun _ => True) fun _ => True) := by
  unfold rowTurn
  split
  · exact blames_pure trivial
  · refine (blames_token hstops _).bind fun _ _ => ?_
    have hvalues : Blames kind tail (loop rowValueTurn []) fun _ => True :=
      blames_loop hstops (fun values _ _ ht => blames_rowValueTurn hstops values ht) trivial
    exact hvalues.bind fun _ _ => blames_pure trivial
  · exact blames_fail ht

theorem blames_parseRows (rows : List Row) : Blames kind tail (parseRows rows) fun _ => True :=
  (blames_token hstops _).bind fun _ _ =>
    blames_loop hstops (fun rows _ _ ht => blames_rowTurn hstops rows ht) trivial

theorem blames_parseOnce (setting : Keyword) (written : Option (Spanned String)) (hint : String) :
    Blames kind tail (parseOnce setting written hint) fun _ => True := by
  refine (blames_ident hstops).bind fun name hname => ?_
  split
  · exact blames_fail hname
  · exact (blames_semi hstops hint).bind fun _ _ => blames_pure trivial

theorem blames_classTurn (start : Span) (klass : Class) {t : Spanned Token} (ht : kind t.span) :
    Blames kind tail (classTurn start klass t) (Turn.Keeps (fun _ => True) fun _ => True) := by
  unfold classTurn
  dsimp only
  split
  · exact blames_pure trivial
  · exact (blames_parseOnce hstops _ _ _).bind fun _ _ => blames_pure trivial
  · exact (blames_parseOnce hstops _ _ _).bind fun _ _ => blames_pure trivial
  · exact (blames_parseOnce hstops _ _ _).bind fun _ _ => blames_pure trivial
  · exact (blames_semi hstops _).bind fun _ _ => blames_pure trivial
  · exact (blames_semi hstops _).bind fun _ _ => blames_pure trivial
  · exact (blames_parseField hstops _).bind fun _ _ => blames_pure trivial
  · exact (blames_parseAssociation hstops _).bind fun _ _ => blames_pure trivial
  · exact (blames_parseComposition hstops _).bind fun _ _ => blames_pure trivial
  · exact (blames_parseAlias hstops _).bind fun _ _ => blames_pure trivial
  · exact (blames_parseRows hstops _).bind fun _ _ => blames_pure trivial
  · exact blames_fail ht

theorem blames_parseParent : Blames kind tail parseParent fun _ => True := by
  refine (blames_optional hstops _).bind fun colon _ => ?_
  cases colon with
  | some _ => exact (blames_ident hstops).bind fun _ _ => blames_pure trivial
  | none => exact blames_pure trivial

theorem blames_parseClass (start : Span) : Blames kind tail (parseClass start) fun _ => True := by
  refine (blames_ident hstops).bind fun name _ => (blames_parseParent hstops).bind fun parent _ => ?_
  refine (blames_optional hstops _).bind fun stereotype _ => (blames_token hstops _).bind fun _ _ => ?_
  exact blames_loop hstops (fun klass _ _ ht => blames_classTurn hstops start klass ht) trivial

theorem blames_parseItem (file : File) {t : Spanned Token} (ht : kind t.span) :
    Blames kind tail (parseItem file t) fun _ => True := by
  unfold parseItem
  split
  · exact (blames_parseUses hstops _).bind fun _ _ => blames_pure trivial
  · exact (blames_parseDomain hstops _).bind fun _ _ => blames_pure trivial
  · exact (blames_parseClass hstops _).bind fun _ _ => blames_pure trivial
  · exact blames_fail ht

theorem reports_of_parseItems {stop : Nat} {file : File} {input : List Lexeme} (hahead : Ahead kind tail input)
    {e : ParseError} (h : parseItems stop file input = .error e) : Reports kind tail stop e := by
  obtain ⟨n, hn⟩ : ∃ n, input.length = n := ⟨_, rfl⟩
  induction n using Nat.strongRecOn generalizing file input with
  | ind n ih =>
    rcases hahead.cases with ⟨t, rest, rfl, ht, hrest⟩ | rfl
    · have hitem := blames_parseItem hstops file ht stop rest hrest
      rw [parseItems] at h
      generalize parseItem file t stop rest = parsed at h hitem
      rcases parsed with e' | ⟨file', rest', hle⟩
      · cases h
        exact hitem
      · exact ih rest'.length (hn ▸ Nat.lt_succ_of_le hle) hitem.1 h rfl
    · rcases input with _ | ⟨⟨t⟩ | ⟨piece⟩, rest⟩
      · rw [parseItems] at h
        cases h
      · exact absurd rfl (hstops t rest)
      · rw [parseItems] at h
        cases h
        exact .unreadable rfl

omit hstops in
theorem exists_stops (input : List Lexeme) :
    ∃ (tokens : List (Spanned Token)) (tail : List Lexeme), input = tokens.map .token ++ tail ∧ Stops tail := by
  induction input with
  | nil => exact ⟨[], [], rfl, fun _ _ h => by cases h⟩
  | cons l input ih =>
    cases l with
    | token t =>
      obtain ⟨tokens, tail, rfl, hstops⟩ := ih
      exact ⟨t :: tokens, tail, rfl, hstops⟩
    | unreadable piece => exact ⟨[], .unreadable piece :: input, rfl, fun _ _ h => by cases h⟩

theorem reports_of_parse {text : String} {tokens : List (Spanned Token)}
    (hscan : Lexeme.scan text = tokens.map .token ++ tail) {e : ParseError} (h : File.parse text = .error e) :
    Reports (fun s => ∃ t ∈ tokens, s = t.span) tail text.utf8ByteSize e :=
  reports_of_parseItems hstops ⟨tokens, hscan, fun t ht => ⟨t, ht, rfl⟩⟩ h

end Declaration

/-- The place of an error in a text: that of the first piece that cannot be read, which the message quotes, or of a
token before it; and if all can be read, that of a token, or the end of the text where a token is missing. -/
structure ParseError.PlacedIn (e : ParseError) (text : String) : Prop where
  within : e.span.LiesIn text
  unreadable : ∀ (before : List (Spanned Token)) (piece : Spanned String) (after : List Lexeme),
    Lexeme.scan text = before.map .token ++ .unreadable piece :: after →
      (e.span = piece.span ∧ piece.span.Cuts text piece.value ∧ e.message = s!"unexpected input '{piece.value}'")
        ∨ ∃ t ∈ before, e.span = t.span ∧ t.span.stop ≤ piece.span.start
  readable : (∀ piece, Lexeme.unreadable piece ∉ Lexeme.scan text) →
    (∃ t ∈ Token.ofText text, e.span = t.span)
      ∨ e.span = ⟨text.utf8ByteSize, text.utf8ByteSize⟩ ∧ e.cause = .endOfInput

namespace Declaration

theorem stop_le_of_scan {text : String} {before : List (Spanned Token)} {piece : Spanned String} {after : List Lexeme}
    (hscan : Lexeme.scan text = before.map .token ++ .unreadable piece :: after) {t : Spanned Token}
    (ht : t ∈ before) : t.span.stop ≤ piece.span.start := by
  have hapart := (Lexeme.aligned_scanFrom 0 text.toList).1.apart
  rw [show Lexeme.scanFrom 0 text.toList = _ from hscan, List.map_append] at hapart
  have htoken : t.span ∈ (before.map Lexeme.token).map Lexeme.span :=
    List.mem_map_of_mem (f := Lexeme.span) (List.mem_map_of_mem ht)
  exact (List.pairwise_append.mp hapart).2.2 _ htoken piece.span List.mem_cons_self

/-- What an error is cut out of its text starts with no white space. -/
theorem exists_opening_of_parse {text : String} {e : ParseError} (h : File.parse text = .error e) :
    ∃ piece, e.span.Cuts text piece ∧ ∀ c ∈ piece.toList.head?, Piece.isSpace c = false := by
  obtain ⟨tokens, tail, hscan, hstops⟩ := exists_stops (Lexeme.scan text)
  cases reports_of_parse hstops hscan h with
  | token hspan =>
    obtain ⟨t, ht, hspan⟩ := hspan
    rw [hspan]
    have hmem : Lexeme.token t ∈ Lexeme.scan text :=
      hscan ▸ List.mem_append_left tail (List.mem_map_of_mem ht)
    exact Lexeme.exists_opening hmem
  | @unreadable piece rest _ htail =>
    have hmem : Lexeme.unreadable piece ∈ Lexeme.scan text := by
      rw [hscan, htail]
      exact List.mem_append_right _ List.mem_cons_self
    exact Lexeme.exists_opening hmem
  | endOfInput => exact ⟨"", Span.cuts_end text, by simp⟩

/-- **Where errors are.** A text that is refused is refused for its first unreadable piece or for a token before it,
and one that can be read for a token or for its end. -/
theorem parse_error_placed {text : String} {e : ParseError} (h : File.parse text = .error e) : e.PlacedIn text where
  within := by
    obtain ⟨piece, hcuts, -⟩ := exists_opening_of_parse h
    exact ⟨piece, hcuts⟩
  unreadable before piece after hscan := by
    cases reports_of_parse (fun _ _ h => by cases h) hscan h with
    | token hspan =>
      obtain ⟨t, ht, hspan⟩ := hspan
      exact Or.inr ⟨t, ht, hspan, stop_le_of_scan hscan ht⟩
    | unreadable htail =>
      cases htail
      have hmem : Lexeme.unreadable piece ∈ Lexeme.scan text :=
        hscan ▸ List.mem_append_right _ List.mem_cons_self
      exact Or.inl ⟨rfl, Lexeme.cuts_of_unreadable hmem, rfl⟩
    | endOfInput htail => cases htail
  readable hreadable := by
    have hscan := Lexeme.eq_map_token_iff.mpr ⟨hreadable, rfl⟩
    rw [← List.append_nil ((_ : List (Spanned Token)).map _)] at hscan
    cases reports_of_parse (fun _ _ h => by cases h) hscan h with
    | token hspan => exact Or.inl hspan
    | unreadable htail => cases htail
    | endOfInput => exact Or.inr ⟨rfl, rfl⟩

/-- The error that a text is refused with. -/
def File.refusal? (text : String) : Option ParseError :=
  match File.parse text with
  | .error e => some e
  | .ok _ => none

theorem parse_eq_error_of_refusal? {text : String} {e : ParseError} (h : File.refusal? text = some e) :
    File.parse text = .error e := by
  unfold File.refusal? at h
  generalize File.parse text = parsed at h ⊢
  cases parsed with
  | error e' => exact congrArg Except.error (Option.some.inj h)
  | ok file => cases h

/-- A colon that is seen across a letter that cannot be read. -/
theorem parse_error_placed_letter :
    ∃ e, File.parse "class A é : B \x7b" = .error e ∧ e.span = ⟨8, 10⟩ ∧ e.PlacedIn "class A é : B \x7b" := by
  have hparse : File.parse "class A é : B \x7b" = .error ⟨.unreadable "é", ⟨8, 10⟩, none⟩ :=
    parse_eq_error_of_refusal? (by decide +kernel)
  exact ⟨_, hparse, rfl, parse_error_placed hparse⟩

end Declaration

end EntityModel
