import EntityModel.Proofs.Grammar

/-!
# Parsers that recognize phrases

A parser recognizes a phrase when it accepts just the inputs that start with one, takes the phrase off, and
yields what it says (`Recognizes`). Each combinator of parsers recognizes what its counterpart for phrases
makes of what its parts recognize. Where a parser has to choose, the next token settles it: a parser that
takes a token goes on with what follows the token in the phrase, an optional token is taken if there is one,
and so must not be what follows otherwise, and a loop ends with the first turn that says so.
-/

namespace EntityModel

theorem Lexeme.eq_map_token_iff {input : List Lexeme} {tokens : List (Spanned Token)} :
    input = tokens.map token ↔ (∀ piece, unreadable piece ∉ input) ∧ tokens = input.filterMap token? := by
  constructor
  · rintro rfl
    refine ⟨fun piece h => ?_, ?_⟩
    · obtain ⟨t, -, ht⟩ := List.mem_map.mp h
      cases ht
    · rw [List.filterMap_map]
      exact (List.filterMap_some).symm
  · rintro ⟨hreadable, rfl⟩
    induction input with
    | nil => rfl
    | cons lexeme rest ih =>
      have hrest := ih fun piece h => hreadable piece (List.mem_cons_of_mem _ h)
      cases lexeme with
      | token t =>
        have hfirst : (token t).token? = some t := rfl
        rw [List.filterMap_cons_some hfirst, List.map_cons, ← hrest]
      | unreadable piece => exact absurd List.mem_cons_self (hreadable piece)

namespace Parser

variable {α β γ σ ι κ : Type}

/-- A parser recognizes a phrase: it accepts just the inputs that start with one, takes the phrase off, and
yields what it says. -/
def Recognizes (p : Parser α) (phrase : Phrase α) : Prop :=
  ∀ stop input a rest, (∃ h, p stop input = .ok ⟨a, rest, h⟩)
    ↔ ∃ tokens, input = tokens.map Lexeme.token ++ rest ∧ phrase tokens a

theorem recognizes_pure (value : α) : Recognizes (pure value) (pure value) := by
  intro stop input a rest
  constructor
  · rintro ⟨h, hok⟩
    cases hok
    exact ⟨[], rfl, rfl, rfl⟩
  · rintro ⟨_, rfl, rfl, rfl⟩
    exact ⟨Nat.le_refl _, rfl⟩

theorem recognizes_fail (cause : ParseError.Cause) (span : Span) (hint : Option String) :
    Recognizes (fail cause span hint : Parser α) Phrase.never := by
  intro stop input a rest
  constructor
  · rintro ⟨h, hok⟩
    cases hok
  · rintro ⟨_, _, ⟨⟩⟩

theorem bind_eq_ok {p : Parser α} {f : α → Parser β} {stop : Nat} {input : List Lexeme} {b : β}
    {rest : List Lexeme} : (∃ h, (p >>= f) stop input = .ok ⟨b, rest, h⟩)
      ↔ ∃ a mid, (∃ h, p stop input = .ok ⟨a, mid, h⟩) ∧ ∃ h, f a stop mid = .ok ⟨b, rest, h⟩ := by
  change (∃ h, andThen p f stop input = _) ↔ _
  unfold andThen
  constructor
  · rintro ⟨h, hok⟩
    split at hok
    · cases hok
    · next a mid hmid hp =>
      split at hok
      · cases hok
      · next b' rest' hrest hf =>
        cases hok
        exact ⟨a, mid, ⟨hmid, hp⟩, hrest, hf⟩
  · rintro ⟨a, mid, ⟨hmid, hp⟩, hrest, hf⟩
    refine ⟨Nat.le_trans hrest hmid, ?_⟩
    simp only [hp, hf]

theorem bind_assoc (p : Parser α) (f : α → Parser β) (g : β → Parser γ) :
    (p >>= f >>= g) = (p >>= fun a => f a >>= g) := by
  funext stop input
  change andThen (andThen p f) g stop input = andThen p (fun a => andThen (f a) g) stop input
  simp only [andThen]
  rcases p stop input with e | ⟨a, mid, hmid⟩
  · rfl
  · dsimp only
    rcases f a stop mid with e | ⟨b, rest, hrest⟩
    · rfl
    · dsimp only
      rcases g b stop rest with e | ⟨c, last, hlast⟩ <;> rfl

theorem Recognizes.bind {p : Parser α} {f : α → Parser β} {phrase : Phrase α} {next : α → Phrase β}
    (hp : Recognizes p phrase) (hf : ∀ a, Recognizes (f a) (next a)) :
    Recognizes (p >>= f) (phrase >>= next) := by
  intro stop input b rest
  rw [bind_eq_ok]
  constructor
  · rintro ⟨a, mid, hmid, hrest⟩
    obtain ⟨first, rfl, hfirst⟩ := (hp stop input a mid).mp hmid
    obtain ⟨last, rfl, hlast⟩ := (hf a stop mid b rest).mp hrest
    exact ⟨first ++ last, by simp, first, last, a, rfl, hfirst, hlast⟩
  · rintro ⟨_, rfl, first, last, a, rfl, hfirst, hlast⟩
    exact ⟨a, last.map Lexeme.token ++ rest, (hp ..).mpr ⟨first, by simp, hfirst⟩,
      (hf ..).mpr ⟨last, rfl, hlast⟩⟩

theorem Recognizes.hinting {p : Parser α} {phrase : Phrase α} (hp : Recognizes p phrase) (hint : String) :
    Recognizes (Parser.hinting hint p) phrase := by
  intro stop input a rest
  rw [← hp stop input a rest]
  unfold Parser.hinting
  rcases p stop input with e | result <;> simp

theorem next_bind_token {f : Spanned Token → Parser β} {stop : Nat} {token : Spanned Token}
    {input rest : List Lexeme} {b : β} :
    (∃ h, (next >>= f) stop (.token token :: input) = .ok ⟨b, rest, h⟩)
      ↔ ∃ h, f token stop input = .ok ⟨b, rest, h⟩ := by
  rw [bind_eq_ok]
  constructor
  · rintro ⟨_, _, ⟨_, ⟨⟩⟩, hrest⟩
    exact hrest
  · intro hrest
    exact ⟨token, input, ⟨Nat.le_succ _, rfl⟩, hrest⟩

/-- A parser that takes a token first settles the phrase's choices with it. -/
theorem Recognizes.next_bind {f : Spanned Token → Parser β} {phrase : Phrase β}
    (hnil : ∀ b, ¬ phrase [] b) (hf : ∀ token, Recognizes (f token) (phrase.after token)) :
    Recognizes (next >>= f) phrase := by
  intro stop input b rest
  rw [bind_eq_ok]
  constructor
  · rintro ⟨token, mid, ⟨hmid, htoken⟩, hrest⟩
    obtain ⟨tokens, rfl, htokens⟩ := (hf token stop mid b rest).mp hrest
    rcases input with _ | ⟨⟨first⟩ | ⟨piece⟩, others⟩
    · cases htoken
    · cases htoken
      exact ⟨token :: tokens, rfl, htokens⟩
    · cases htoken
  · rintro ⟨_ | ⟨token, tokens⟩, rfl, htokens⟩
    · exact absurd htokens (hnil b)
    · exact ⟨token, tokens.map Lexeme.token ++ rest, ⟨Nat.le_succ _, rfl⟩,
        (hf token ..).mpr ⟨tokens, rfl, htokens⟩⟩

theorem optional_eq_ok {accept : Token → Option α} {stop : Nat} {input rest : List Lexeme}
    {a : Option (Spanned α)} : (∃ h, optional accept stop input = .ok ⟨a, rest, h⟩)
      ↔ (∃ token value, input = .token token :: rest ∧ accept token.value = some value
          ∧ a = some ⟨value, token.span⟩)
        ∨ a = none ∧ rest = input
          ∧ ∀ token others, input = .token token :: others → accept token.value = none := by
  constructor
  · rintro ⟨h, hok⟩
    rcases input with _ | ⟨⟨token⟩ | ⟨piece⟩, others⟩
    · cases hok
      exact Or.inr ⟨rfl, rfl, by simp⟩
    · rcases haccept : accept token.value with _ | value
      · simp only [optional, haccept] at hok
        cases hok
        refine Or.inr ⟨rfl, rfl, fun token' others' heq => ?_⟩
        cases heq
        exact haccept
      · simp only [optional, haccept] at hok
        cases hok
        exact Or.inl ⟨token, value, rfl, haccept, rfl⟩
    · cases hok
      exact Or.inr ⟨rfl, rfl, by simp⟩
  · rintro (⟨token, value, rfl, haccept, rfl⟩ | ⟨rfl, rfl, hnone⟩)
    · exact ⟨Nat.le_succ _, by simp only [optional, haccept]⟩
    · refine ⟨Nat.le_refl _, ?_⟩
      rcases rest with _ | ⟨⟨token⟩ | ⟨piece⟩, others⟩
      · rfl
      · simp only [optional, hnone token others rfl]
      · rfl

/-- An optional token, where what follows without it cannot start with one. -/
theorem Recognizes.optional_bind {accept : Token → Option α} {f : Option (Spanned α) → Parser β}
    {next : Option (Spanned α) → Phrase β} (hf : ∀ a, Recognizes (f a) (next a))
    (hstart : ∀ tokens b, next none tokens b →
      ∃ token others, tokens = token :: others ∧ accept token.value = none) :
    Recognizes (optional accept >>= f) (Phrase.opt (Phrase.one accept) >>= next) := by
  intro stop input b rest
  simp only [bind_eq_ok, optional_eq_ok]
  constructor
  · rintro ⟨a, mid, ⟨token, value, rfl, haccept, rfl⟩ | ⟨rfl, rfl, -⟩, hrest⟩
    · obtain ⟨tokens, rfl, htokens⟩ := (hf _ stop mid b rest).mp hrest
      exact ⟨token :: tokens, rfl, [token], tokens, _, rfl,
        Or.inl ⟨[token], [], _, rfl, ⟨token, rfl, haccept, rfl⟩, rfl, rfl⟩, htokens⟩
    · obtain ⟨tokens, rfl, htokens⟩ := (hf _ stop mid b rest).mp hrest
      exact ⟨tokens, rfl, [], tokens, none, rfl, Or.inr ⟨rfl, rfl⟩, htokens⟩
  · rintro ⟨_, rfl, first, last, a, rfl, hfirst | ⟨rfl, rfl⟩, hlast⟩
    · obtain ⟨_, _, ⟨value, span⟩, rfl, ⟨token, rfl, haccept, rfl⟩, rfl, rfl⟩ := hfirst
      exact ⟨_, last.map Lexeme.token ++ rest, Or.inl ⟨token, value, rfl, haccept, rfl⟩,
        (hf ..).mpr ⟨last, rfl, hlast⟩⟩
    · refine ⟨none, _, Or.inr ⟨rfl, rfl, ?_⟩, (hf ..).mpr ⟨last, rfl, hlast⟩⟩
      obtain ⟨token, others, rfl, haccept⟩ := hstart last b hlast
      rintro token' others' heq
      cases heq
      exact haccept

theorem Recognizes.require_bind {p : Parser α} {phrase : Phrase α} {condition : Prop}
    (hholds : condition → Recognizes p phrase) (hfails : ¬ condition → Recognizes p Phrase.never) :
    Recognizes p (do Phrase.require condition; phrase) := by
  by_cases hcondition : condition
  · rw [Phrase.require_of hcondition]
    exact hholds hcondition
  · rw [Phrase.require_of_not hcondition]
    exact hfails hcondition

/-! ### Loops -/

theorem next_bind_lt {f : Spanned Token → Parser β} {stop : Nat} {input rest : List Lexeme} {b : β}
    (h : ∃ h, (next >>= f) stop input = .ok ⟨b, rest, h⟩) : rest.length < input.length := by
  obtain ⟨token, mid, ⟨hmid, htoken⟩, hrest, -⟩ := bind_eq_ok.mp h
  rcases input with _ | ⟨⟨first⟩ | ⟨piece⟩, others⟩
  · cases htoken
  · cases htoken
    exact Nat.lt_succ_of_le hrest
  · cases htoken

theorem loop_eq (turn : σ → Spanned Token → Parser (Turn σ β)) (state : σ) :
    loop turn state = (next >>= turn state) >>= fun
      | .done result => pure result
      | .more state' => loop turn state' := by
  funext stop input
  rw [loop.eq_def]
  rcases input with _ | ⟨⟨token⟩ | ⟨piece⟩, others⟩
  · rfl
  · change _ = andThen (andThen next (turn state)) _ stop _
    simp only [andThen, next]
    rcases turn state token stop others with e | ⟨state' | result, rest, h⟩
    · rfl
    · rfl
    · rfl
  · rfl

/-- A loop that collects items recognizes any number of them and what closes them. It keeps its state by
the items taken so far, and refuses an item that breaks a condition on them. -/
theorem Recognizes.loop {turn : σ → Spanned Token → Parser (Turn σ β)} {item : Phrase ι} {close : Phrase κ}
    {state : List ι → σ} {holds : List ι → Prop} {finish : List ι → κ → β}
    (hfront : ∀ items more, holds (items ++ more) → holds items)
    (hturn : ∀ items, holds items → Recognizes (next >>= turn (state items))
      ((do
          let i ← item
          Phrase.require (holds (items ++ [i]))
          return .more (state (items ++ [i])))
        <|> (do return .done (finish items (← close)))))
    {items : List ι} (hitems : holds items) :
    Recognizes (Parser.loop turn (state items)) (do
      let more ← Phrase.star item
      let closed ← close
      Phrase.require (holds (items ++ more))
      return finish (items ++ more) closed) := by
  intro stop input b rest
  obtain ⟨n, hn⟩ : ∃ n, input.length = n := ⟨_, rfl⟩
  induction n using Nat.strongRecOn generalizing input items with
  | ind n ih =>
    rw [loop_eq, bind_eq_ok]
    constructor
    · rintro ⟨result, mid, hmid, hrest⟩
      have hlt := next_bind_lt hmid
      obtain ⟨tokens, rfl, hmore | hdone⟩ := (hturn items hitems stop input result mid).mp hmid
      · obtain ⟨i, hi, hholds, rfl⟩ := Phrase.bind_require_pure_iff.mp hmore
        obtain ⟨_, rfl, others, last, more, rfl, hothers, hlast⟩ :=
          (ih _ (hn ▸ hlt) hholds mid rfl).mp hrest
        refine ⟨tokens ++ (others ++ last), by simp, tokens ++ others, last, i :: more, by simp,
          .cons hi hothers, ?_⟩
        simpa only [List.append_assoc, List.singleton_append] using hlast
      · obtain ⟨closed, hclosed, rfl⟩ := Phrase.bind_pure_iff.mp hdone
        obtain ⟨_, rfl, rfl, rfl⟩ := (recognizes_pure _ stop mid b rest).mp hrest
        refine ⟨tokens, rfl, [], tokens, [], rfl, .nil, ?_⟩
        exact Phrase.bind_require_pure_iff.mpr
          ⟨closed, hclosed, by rwa [List.append_nil], by rw [List.append_nil]⟩
    · rintro ⟨_, rfl, _, last, _, rfl, _ | @⟨first, others, i, more, hi, hothers⟩, hlast⟩
      · obtain ⟨closed, hclosed, -, rfl⟩ := Phrase.bind_require_pure_iff.mp hlast
        rw [List.append_nil]
        exact ⟨.done (finish items closed), rest, (hturn items hitems ..).mpr
          ⟨last, rfl, Or.inr (Phrase.bind_pure_iff.mpr ⟨closed, hclosed, rfl⟩)⟩,
          (recognizes_pure _ ..).mpr ⟨[], rfl, rfl, rfl⟩⟩
      · have hholds : holds (items ++ [i]) := by
          obtain ⟨closed, -, hall, -⟩ := Phrase.bind_require_pure_iff.mp hlast
          exact hfront _ more (by simpa using hall)
        have hmid := (hturn items hitems stop ((first ++ others ++ last).map Lexeme.token ++ rest) _
          ((others ++ last).map Lexeme.token ++ rest)).mpr
          ⟨first, by simp, Or.inl (Phrase.bind_require_pure_iff.mpr ⟨i, hi, hholds, rfl⟩)⟩
        refine ⟨_, _, hmid, (ih _ (hn ▸ next_bind_lt hmid) hholds _ rfl).mpr
          ⟨others ++ last, rfl, others, last, more, rfl, hothers, ?_⟩⟩
        simpa only [List.append_assoc, List.singleton_append] using hlast

/-! ### Single tokens -/

theorem recognizes_token (expected : Token) : Recognizes (token expected) (Phrase.exactly expected) := by
  refine .next_bind (fun b => by simp [Phrase.exactly]) fun t => ?_
  rw [Phrase.after_exactly]
  split
  · exact recognizes_pure _
  · exact recognizes_fail _ _ _

theorem recognizes_semi (hint : String) : Recognizes (semi hint) Phrase.semi :=
  ((recognizes_token _).hinting hint).bind fun _ => recognizes_pure _

theorem recognizes_ident : Recognizes ident Phrase.ident := by
  refine .next_bind (fun _ => Phrase.one_not_nil _) fun ⟨t, span⟩ => ?_
  rw [Phrase.ident, Phrase.after_one]
  cases t with
  | ident name => exact recognizes_pure _
  | _ => exact recognizes_fail _ _ _

theorem recognizes_string : Recognizes string Phrase.string := by
  refine .next_bind (fun b => by simp [Phrase.string]) fun ⟨t, span⟩ => ?_
  rw [Phrase.string, Phrase.after_one_bind]
  cases t with
  | string value => exact recognizes_pure _
  | _ => exact recognizes_fail _ _ _

theorem literal?_eq (t : Token) : literal? t = Phrase.literal? t := by
  cases t with
  | keyword word => cases word <;> rfl
  | _ => rfl

theorem recognizes_literal : Recognizes literal Phrase.literal := by
  refine .next_bind (fun _ => Phrase.one_not_nil _) fun t => ?_
  rw [Phrase.literal, Phrase.after_one, ← literal?_eq]
  cases literal? t.value with
  | some value => exact recognizes_pure _
  | none => exact recognizes_fail _ _ _

theorem recognizes_size : Recognizes size Phrase.size := by
  refine .next_bind (fun b => by simp [Phrase.size]) fun ⟨t, span⟩ => ?_
  rw [Phrase.size, Phrase.after_one_bind]
  cases t with
  | integer value =>
    dsimp only [Phrase.size?]
    split
    · exact recognizes_pure _
    · exact recognizes_fail _ _ _
  | _ => exact recognizes_fail _ _ _

end Parser

end EntityModel
