import EntityModel.Declaration.Parser

/-!
# Phrases

A phrase relates the token lists that form it to what they say. Phrases are made from single tokens by
sequence, choice and repetition, and carry side conditions, so that a grammar is written with them as one
is on paper: nothing is said of how its phrases are found in a text.

A parser recognizes a phrase (`Recognizes`) when it accepts just the inputs that start with one, takes it
off, and yields what it says. A choice is settled by the next token: what may follow the token in a phrase is
a phrase again (`Phrase.after`).
-/

namespace EntityModel

/-- The token lists that form a phrase, each with what it says. -/
def Phrase (α : Type) : Type := List (Spanned Token) → α → Prop

namespace Phrase

variable {α β γ : Type}

/-- No tokens. -/
def empty (value : α) : Phrase α := fun tokens a => tokens = [] ∧ a = value

def seq (p : Phrase α) (f : α → Phrase β) : Phrase β := fun tokens b =>
  ∃ first rest a, tokens = first ++ rest ∧ p first a ∧ f a rest b

instance : Monad Phrase where
  pure := empty
  bind := seq

def either (p q : Phrase α) : Phrase α := fun tokens a => p tokens a ∨ q tokens a

instance : OrElse (Phrase α) where
  orElse p q := either p (q ())

/-- No tokens, under a condition. -/
def require (condition : Prop) : Phrase Unit := fun tokens _ => tokens = [] ∧ condition

def never : Phrase α := fun _ _ => False

/-- A phrase any number of times. -/
inductive Star (p : Phrase α) : List (Spanned Token) → List α → Prop
  | nil : Star p [] []
  | cons {first rest : List (Spanned Token)} {a : α} {as : List α} :
      p first a → Star p rest as → Star p (first ++ rest) (a :: as)

/-- A phrase any number of times. -/
def star (p : Phrase α) : Phrase (List α) := Star p

/-- A phrase, or nothing. -/
def opt (p : Phrase α) : Phrase (Option α) := (do return some (← p)) <|> pure none

/-- One token that `accept` takes. -/
def one (accept : Token → Option α) : Phrase (Spanned α) := fun tokens a =>
  ∃ token, tokens = [token] ∧ accept token.value = some a.value ∧ a.span = token.span

/-- What follows a token in a phrase. -/
def after (token : Spanned Token) (p : Phrase α) : Phrase α := fun tokens a => p (token :: tokens) a

/-! ### Laws -/

theorem ext {p q : Phrase α} (h : ∀ tokens a, p tokens a ↔ q tokens a) : p = q := by
  funext tokens a
  exact propext (h tokens a)

theorem pure_iff {tokens : List (Spanned Token)} {value a : α} :
    (pure value : Phrase α) tokens a ↔ tokens = [] ∧ a = value := Iff.rfl

theorem bind_iff {p : Phrase α} {f : α → Phrase β} {tokens : List (Spanned Token)} {b : β} :
    (p >>= f) tokens b ↔ ∃ first rest a, tokens = first ++ rest ∧ p first a ∧ f a rest b := Iff.rfl

theorem either_iff {p q : Phrase α} {tokens : List (Spanned Token)} {a : α} :
    (p <|> q) tokens a ↔ p tokens a ∨ q tokens a := Iff.rfl

theorem Star.eq_nil {p : Phrase α} (hp : ∀ a, ¬ p [] a) {items : List α} (h : Star p [] items) :
    items = [] := by
  generalize hnil : ([] : List (Spanned Token)) = tokens at h
  cases h with
  | nil => rfl
  | cons hfirst _ =>
    obtain ⟨rfl, -⟩ := List.append_eq_nil_iff.mp hnil.symm
    exact absurd hfirst (hp _)

@[simp] theorem pure_bind (value : α) (f : α → Phrase β) : (pure value >>= f) = f value := by
  refine ext fun tokens b => ?_
  simp only [bind_iff, pure_iff]
  constructor
  · rintro ⟨_, rest, _, rfl, ⟨rfl, rfl⟩, hf⟩
    exact hf
  · intro hf
    exact ⟨[], tokens, value, rfl, ⟨rfl, rfl⟩, hf⟩

@[simp] theorem bind_assoc (p : Phrase α) (f : α → Phrase β) (g : β → Phrase γ) :
    (p >>= f >>= g) = (p >>= fun a => f a >>= g) := by
  refine ext fun tokens c => ?_
  simp only [bind_iff]
  constructor
  · rintro ⟨-, last, b, rfl, ⟨first, mid, a, rfl, hp, hf⟩, hg⟩
    exact ⟨first, mid ++ last, a, List.append_assoc .., hp, mid, last, b, rfl, hf, hg⟩
  · rintro ⟨first, -, a, rfl, hp, mid, last, b, rfl, hf, hg⟩
    exact ⟨first ++ mid, last, b, (List.append_assoc ..).symm, ⟨first, mid, a, rfl, hp, hf⟩, hg⟩

@[simp] theorem either_bind (p q : Phrase α) (f : α → Phrase β) :
    ((p <|> q) >>= f) = ((p >>= f) <|> (q >>= f)) := by
  refine ext fun tokens b => ?_
  simp only [bind_iff, either_iff]
  constructor
  · rintro ⟨first, rest, a, htokens, hp | hq, hf⟩
    · exact Or.inl ⟨first, rest, a, htokens, hp, hf⟩
    · exact Or.inr ⟨first, rest, a, htokens, hq, hf⟩
  · rintro (⟨first, rest, a, htokens, hp, hf⟩ | ⟨first, rest, a, htokens, hq, hf⟩)
    · exact ⟨first, rest, a, htokens, Or.inl hp, hf⟩
    · exact ⟨first, rest, a, htokens, Or.inr hq, hf⟩

theorem bind_either (p : Phrase α) (f g : α → Phrase β) :
    (p >>= fun a => (f a <|> g a)) = ((p >>= f) <|> (p >>= g)) := by
  refine ext fun tokens b => ?_
  simp only [bind_iff, either_iff]
  constructor
  · rintro ⟨first, rest, a, htokens, hp, hf | hg⟩
    · exact Or.inl ⟨first, rest, a, htokens, hp, hf⟩
    · exact Or.inr ⟨first, rest, a, htokens, hp, hg⟩
  · rintro (⟨first, rest, a, htokens, hp, hf⟩ | ⟨first, rest, a, htokens, hp, hg⟩)
    · exact ⟨first, rest, a, htokens, hp, Or.inl hf⟩
    · exact ⟨first, rest, a, htokens, hp, Or.inr hg⟩

theorem require_bind_iff {condition : Prop} {f : Unit → Phrase β} {tokens : List (Spanned Token)} {b : β} :
    (require condition >>= f) tokens b ↔ condition ∧ f () tokens b := by
  simp only [bind_iff, require]
  constructor
  · rintro ⟨_, rest, ⟨⟩, rfl, ⟨rfl, hcondition⟩, hf⟩
    exact ⟨hcondition, hf⟩
  · rintro ⟨hcondition, hf⟩
    exact ⟨[], tokens, (), rfl, ⟨rfl, hcondition⟩, hf⟩

theorem require_of {condition : Prop} (h : condition) (p : Phrase α) :
    (do require condition; p) = p := by
  refine ext fun tokens a => ?_
  rw [require_bind_iff]
  exact and_iff_right h

theorem require_of_not {condition : Prop} (h : ¬ condition) (p : Phrase α) :
    (do require condition; p) = never := by
  refine ext fun tokens a => ?_
  rw [require_bind_iff]
  exact iff_of_false (fun h' => h h'.1) id

theorem bind_require_comm (p : Phrase α) (condition : Prop) (f : α → Phrase β) :
    (do let a ← p; require condition; f a) = (do require condition; let a ← p; f a) := by
  refine ext fun tokens b => ?_
  rw [require_bind_iff]
  simp only [bind_iff (p := p), require_bind_iff]
  constructor
  · rintro ⟨first, rest, a, htokens, hp, hcondition, hf⟩
    exact ⟨hcondition, first, rest, a, htokens, hp, hf⟩
  · rintro ⟨hcondition, first, rest, a, htokens, hp, hf⟩
    exact ⟨first, rest, a, htokens, hp, hcondition, hf⟩

theorem bind_pure_iff {p : Phrase α} {f : α → β} {tokens : List (Spanned Token)} {b : β} :
    (p >>= fun a => pure (f a)) tokens b ↔ ∃ a, p tokens a ∧ b = f a := by
  simp only [bind_iff, pure_iff]
  constructor
  · rintro ⟨first, _, a, rfl, hp, rfl, rfl⟩
    exact ⟨a, by rwa [List.append_nil], rfl⟩
  · rintro ⟨a, hp, rfl⟩
    exact ⟨tokens, [], a, (List.append_nil _).symm, hp, rfl, rfl⟩

theorem bind_require_pure_iff {p : Phrase α} {condition : α → Prop} {f : α → β}
    {tokens : List (Spanned Token)} {b : β} :
    (do let a ← p; require (condition a); return f a) tokens b
      ↔ ∃ a, p tokens a ∧ condition a ∧ b = f a := by
  simp only [bind_iff (p := p), require_bind_iff, pure_iff]
  constructor
  · rintro ⟨first, _, a, rfl, hp, hcondition, rfl, rfl⟩
    exact ⟨a, by rwa [List.append_nil], hcondition, rfl⟩
  · rintro ⟨a, hp, hcondition, rfl⟩
    exact ⟨tokens, [], a, (List.append_nil _).symm, hp, hcondition, rfl, rfl⟩

theorem opt_iff {p : Phrase α} {tokens : List (Spanned Token)} {a : Option α} :
    opt p tokens a ↔ (∃ value, p tokens value ∧ a = some value) ∨ tokens = [] ∧ a = none := by
  rw [opt, either_iff, bind_pure_iff, pure_iff]

/-! ### What follows a token -/

variable {token : Spanned Token}

theorem after_iff {p : Phrase α} {tokens : List (Spanned Token)} {a : α} :
    p.after token tokens a ↔ p (token :: tokens) a := Iff.rfl

@[simp] theorem after_either (p q : Phrase α) : (p <|> q).after token = (p.after token <|> q.after token) :=
  rfl

/-- A phrase that no tokens form leaves what follows a token in a sequence to its first part. -/
theorem after_bind {p : Phrase α} (hp : ∀ a, ¬ p [] a) (f : α → Phrase β) :
    (p >>= f).after token = (p.after token >>= f) := by
  refine ext fun tokens b => ?_
  simp only [after_iff, bind_iff]
  constructor
  · rintro ⟨_ | ⟨first, firsts⟩, rest, a, htokens, hfirst, hrest⟩
    · exact absurd hfirst (hp a)
    · obtain ⟨rfl, rfl⟩ := List.cons.inj htokens
      exact ⟨firsts, rest, a, rfl, hfirst, hrest⟩
  · rintro ⟨first, rest, a, rfl, hfirst, hrest⟩
    exact ⟨token :: first, rest, a, rfl, hfirst, hrest⟩

@[simp] theorem never_bind (f : α → Phrase β) : ((never : Phrase α) >>= f) = never := by
  refine ext fun tokens b => ?_
  simp [bind_iff, never]

@[simp] theorem never_either (p : Phrase α) : (never <|> p) = p := by
  refine ext fun tokens a => ?_
  simp [either_iff, never]

@[simp] theorem either_never (p : Phrase α) : (p <|> never) = p := by
  refine ext fun tokens a => ?_
  simp [either_iff, never]

theorem one_not_nil {accept : Token → Option α} (a : Spanned α) : ¬ one accept [] a := by
  rintro ⟨token, htokens, -⟩
  simp at htokens

@[simp] theorem after_one_bind (accept : Token → Option α) (f : Spanned α → Phrase β) :
    (one accept >>= f).after token = match accept token.value with
      | some a => f ⟨a, token.span⟩
      | none => never := by
  rw [after_bind one_not_nil]
  refine ext fun tokens b => ?_
  rcases haccept : accept token.value with _ | a
  · simp [bind_iff, after_iff, one, haccept, never]
  · simp only [bind_iff, after_iff, one]
    constructor
    · rintro ⟨first, rest, ⟨value, span⟩, rfl, ⟨token', htokens, hvalue, rfl⟩, hf⟩
      obtain ⟨rfl, rfl⟩ := List.cons.inj htokens
      obtain rfl : a = value := by simpa [haccept] using hvalue
      exact hf
    · intro hf
      exact ⟨[], tokens, ⟨a, token.span⟩, rfl, ⟨token, rfl, haccept, rfl⟩, hf⟩

@[simp] theorem after_one (accept : Token → Option α) :
    (one accept).after token = match accept token.value with
      | some a => pure ⟨a, token.span⟩
      | none => never := by
  have h : (one accept >>= pure) = one accept := by
    refine ext fun tokens a => ?_
    simp [bind_iff, pure_iff]
  rw [← h, after_one_bind]

/-! ### Single tokens -/

@[simp] theorem one_bind_nil (accept : Token → Option α) (f : Spanned α → Phrase β) (b : β) :
    ¬ (one accept >>= f) [] b := by
  simp [bind_iff, one]

/-- The token `expected`, which says where it is. -/
def exactly (expected : Token) : Phrase Span := do
  return (← one fun token => if token = expected then some () else none).span

@[simp] theorem after_exactly_bind (expected : Token) (f : Span → Phrase β) :
    (exactly expected >>= f).after token = if token.value = expected then f token.span else never := by
  rw [exactly, bind_assoc, after_one_bind]
  split
  · simp_all
  · simp_all

@[simp] theorem after_exactly (expected : Token) :
    (exactly expected).after token = if token.value = expected then pure token.span else never := by
  rw [exactly, after_one_bind]
  split
  · simp_all
  · simp_all

@[simp] theorem exactly_bind_nil (expected : Token) (f : Span → Phrase β) (b : β) :
    ¬ (exactly expected >>= f) [] b := by
  simp [exactly]

theorem exactly_bind_iff {expected : Token} {f : Span → Phrase β} {tokens : List (Spanned Token)} {b : β} :
    (exactly expected >>= f) tokens b ↔ ∃ span rest, tokens = ⟨expected, span⟩ :: rest ∧ f span rest b := by
  rcases tokens with _ | ⟨⟨value, span⟩, rest⟩
  · simp
  · change (exactly expected >>= f).after ⟨value, span⟩ rest b ↔ _
    rw [after_exactly_bind]
    by_cases h : value = expected
    · subst h
      rw [if_pos rfl]
      exact ⟨fun hf => ⟨span, rest, rfl, hf⟩, by rintro ⟨_, _, ⟨⟩, hf⟩; exact hf⟩
    · rw [if_neg h]
      exact iff_of_false id fun ⟨_, _, heq, _⟩ => h (by cases heq; rfl)

theorem exactly_iff {expected : Token} {tokens : List (Spanned Token)} {span : Span} :
    exactly expected tokens span ↔ tokens = [⟨expected, span⟩] := by
  have h : (exactly expected >>= pure) = exactly expected := by
    refine ext fun tokens a => ?_
    simp [bind_iff, pure_iff]
  rw [← h, exactly_bind_iff]
  constructor
  · rintro ⟨_, _, rfl, rfl, rfl⟩
    rfl
  · rintro rfl
    exact ⟨span, [], rfl, rfl, rfl⟩

/-- A phrase starts with a reserved word. -/
def StartsWith (p : Phrase α) (word : Keyword) : Prop :=
  ∃ f : Span → Phrase α, p = (exactly (.keyword word) >>= f)

theorem StartsWith.bind_nil {p : Phrase α} {word : Keyword} (hp : p.StartsWith word) (f : α → Phrase β)
    (b : β) : ¬ (p >>= f) [] b := by
  obtain ⟨rest, rfl⟩ := hp
  simp

theorem StartsWith.after_bind {p : Phrase α} {word : Keyword} (hp : p.StartsWith word) (f : α → Phrase β) :
    (p >>= f).after token = if token.value = .keyword word then p.after token >>= f else never := by
  obtain ⟨rest, rfl⟩ := hp
  simp only [bind_assoc, after_exactly_bind]
  split <;> rfl

end Phrase

end EntityModel
