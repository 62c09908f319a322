import EntityModel.Proofs.Covering
import EntityModel.Token.Reader
import Mathlib.Data.List.Find

/-!
# Looking ahead

Whatever calls are made of a reader, in whatever order, it answers as the plain lists of the tokens and the unreadable
pieces of its text say (`Reader.Answers`): the calls that take a token number the tokens, looking ahead changes
nothing, and a question for unreadable pieces is about the part of the text between two points reached
(`Reader.answers_of_calls`). A reader stands somewhere in the lexemes, with all before it passed (`Reader.Stands`);
each call keeps this, and the answers follow from it.
-/

namespace EntityModel

namespace Lexeme

/-- The place of a lexeme that is unreadable. -/
def refusal? : Lexeme → Option Span
  | token _ => none
  | unreadable piece => some piece.span

/-- The places of the unreadable pieces of a text, in order. -/
def refusals (text : String) : List Span := (scan text).filterMap refusal?

end Lexeme

open Lexeme (token? refusal? refusals ordered_scan start_lt_stop)

namespace Reader

/-! ### Calls and answers -/

inductive Call where
  | next
  | peek
  | takeUnreadable

/-- A call with its answer. -/
inductive Event where
  | next (answer : Option (Spanned Token))
  | peek (answer : Option (Spanned Token))
  | takeUnreadable (answer : Option Span)

namespace Event

def call : Event → Call
  | next _ => .next
  | peek _ => .peek
  | takeUnreadable _ => .takeUnreadable

/-- Whether a token was taken, or found missing. -/
def isNext : Event → Bool
  | next _ => true
  | _ => false

/-- Whether an unreadable piece was handed out. -/
def handsOut : Event → Bool
  | takeUnreadable answer => answer.isSome
  | _ => false

end Event

def answer (r : Reader) : Call → Event × Reader
  | .next => (.next r.next.1, r.next.2)
  | .peek => (.peek r.peek.1, r.peek.2)
  | .takeUnreadable => (.takeUnreadable r.takeUnreadable.1, r.takeUnreadable.2)

def run (r : Reader) : List Call → List Event
  | [] => []
  | call :: calls => (r.answer call).1 :: (r.answer call).2.run calls

/-! ### What answers say of the text -/

/-- Where reading stands when a token is found, or none. -/
def endOf (text : String) : Option (Spanned Token) → Nat
  | some t => t.span.stop
  | none => text.utf8ByteSize

/-- Where an answer shows reading to be. -/
def Event.point (text : String) : Event → Nat
  | next found => endOf text found
  | peek found => endOf text found
  | takeUnreadable _ => 0

/-- The furthest point that any answer shows. -/
def reached (text : String) (events : List Event) : Nat := (events.map (Event.point text)).foldl max 0

/-- The point that was reached when an unreadable piece was last handed out, the start of the text if none was. -/
inductive Cleared (text : String) : List Event → Nat → Prop
  | start {events : List Event} : (∀ e ∈ events, e.handsOut = false) → Cleared text events 0
  | handed {before after : List Event} {piece : Span} : (∀ e ∈ after, e.handsOut = false) →
      Cleared text (before ++ .takeUnreadable (some piece) :: after) (reached text before)

/-- The answers that the tokens and unreadable pieces of a text give to a call, made after others. -/
inductive Answers (text : String) (before : List Event) : Event → Prop
  | next : Answers text before (.next (Token.ofText text)[before.countP Event.isNext]?)
  | peek : Answers text before (.peek (Token.ofText text)[before.countP Event.isNext]?)
  | takeUnreadable {cleared : Nat} : Cleared text before cleared → Answers text before
      (.takeUnreadable ((refusals text).find? fun s => cleared ≤ s.start && s.stop ≤ reached text before))

/-! ### Small facts -/

section facts

variable {text : String} {events : List Event} {e : Event} {cleared : Nat}

theorem reached_concat : reached text (events ++ [e]) = max (reached text events) (e.point text) := by
  simp [reached]

theorem Cleared.concat (h : Cleared text events cleared) (he : e.handsOut = false) :
    Cleared text (events ++ [e]) cleared := by
  cases h with
  | start hnone => exact .start (List.forall_mem_append.mpr ⟨hnone, List.forall_mem_singleton.mpr he⟩)
  | @handed before after piece hnone =>
    rw [List.append_assoc, List.cons_append]
    exact .handed (List.forall_mem_append.mpr ⟨hnone, List.forall_mem_singleton.mpr he⟩)

theorem Cleared.handing (piece : Span) :
    Cleared text (events ++ [.takeUnreadable (some piece)]) (reached text events) := by
  exact .handed (by simp)

end facts

/-- The next token is found behind unreadable pieces, of which the first is remembered. -/
theorem advance_spec (passed : Option Span) (rest : List Lexeme) :
    ∃ skipped, (∀ l ∈ skipped, token? l = none)
      ∧ ((∃ t behind, rest = skipped ++ .token t :: behind
          ∧ advance passed rest = (some t, behind, passed.or (skipped.filterMap refusal?).head?))
        ∨ rest = skipped ∧ advance passed rest = (none, [], passed.or (skipped.filterMap refusal?).head?)) := by
  induction rest generalizing passed with
  | nil => exact ⟨[], by simp, .inr ⟨rfl, by simp [advance]⟩⟩
  | cons l rest ih =>
    cases l with
    | token t => exact ⟨[], by simp, .inl ⟨t, rest, rfl, by simp [advance]⟩⟩
    | unreadable piece =>
      obtain ⟨skipped, hskipped, h⟩ := ih (passed.or piece.span)
      refine ⟨.unreadable piece :: skipped, List.forall_mem_cons.mpr ⟨rfl, hskipped⟩, ?_⟩
      rcases h with ⟨t, behind, rfl, hadvance⟩ | ⟨rfl, hadvance⟩
      · refine .inl ⟨t, behind, rfl, ?_⟩
        rw [advance, hadvance]
        cases passed <;> rfl
      · refine .inr ⟨rfl, ?_⟩
        rw [advance, hadvance]
        cases passed <;> rfl

/-! ### Where a reader stands -/

/-- Some lexemes of a text have been passed: those before the point that answers show. Remembered is the first
unreadable one of them behind the point where one was handed out last. -/
structure Passes (text : String) (events : List Event) (done : List Lexeme) (cleared : Nat) (rest : List Lexeme)
    (passed : Option Span) : Prop where
  split : Lexeme.scan text = done ++ rest
  behind : ∀ l ∈ done, l.span.stop ≤ reached text events
  ahead : ∀ l ∈ rest, reached text events ≤ l.span.start
  since : Cleared text events cleared
  cleared_le : cleared ≤ reached text events
  reached_le : reached text events ≤ text.utf8ByteSize
  passed : passed = (done.filterMap refusal?).find? fun s => cleared ≤ s.start

/-- What tokens a reader has ahead, one of them perhaps looked at. -/
def TokensAhead (text : String) (events : List Event) (r : Reader) : Prop :=
  match r.ahead with
  | none => (Token.ofText text).drop (events.countP Event.isNext) = r.rest.filterMap token?
  | some found => found = (Token.ofText text)[events.countP Event.isNext]?
    ∧ (Token.ofText text).drop (events.countP Event.isNext + 1) = r.rest.filterMap token?
    ∧ endOf text found ≤ reached text events

/-- Where a reader stands after some answers. -/
def Stands (text : String) (events : List Event) (r : Reader) : Prop :=
  TokensAhead text events r ∧ ∃ done cleared, Passes text events done cleared r.rest r.passed

section passes

variable {text : String} {events : List Event} {e : Event} {done rest : List Lexeme} {cleared : Nat}
  {passed : Option Span}

theorem Passes.subset (h : Passes text events done cleared rest passed) :
    done ⊆ Lexeme.scan text ∧ rest ⊆ Lexeme.scan text := by
  rw [h.split]
  exact ⟨List.subset_append_left done rest, List.subset_append_right done rest⟩

theorem exists_refusal {s : Span} {lexemes : List Lexeme} (hsub : lexemes ⊆ Lexeme.scan text)
    (h : s ∈ lexemes.filterMap refusal?) : ∃ l ∈ lexemes, l.span = s ∧ s.start < s.stop := by
  obtain ⟨l, hl, hs⟩ := List.mem_filterMap.mp h
  cases l with
  | token t => simp [refusal?] at hs
  | unreadable piece =>
    obtain rfl : piece.span = s := by simpa [refusal?] using hs
    exact ⟨_, hl, rfl, start_lt_stop (hsub hl)⟩

/-- What is remembered is the first unreadable piece between the two points. -/
theorem Passes.passed_eq (h : Passes text events done cleared rest passed) :
    passed = (refusals text).find? fun s => cleared ≤ s.start && s.stop ≤ reached text events := by
  have hrest : (rest.filterMap refusal?).find? (fun s => cleared ≤ s.start && s.stop ≤ reached text events) = none := by
    rw [List.find?_eq_none]
    intro s hs
    obtain ⟨l, hl, rfl, hlt⟩ := exists_refusal h.subset.2 hs
    have hahead := h.ahead l hl
    simp only [Bool.and_eq_true, decide_eq_true_eq]
    omega
  have hdone : ∀ s ∈ done.filterMap refusal?,
      decide (cleared ≤ s.start) = (decide (cleared ≤ s.start) && decide (s.stop ≤ reached text events)) := by
    intro s hs
    obtain ⟨l, hl, rfl, -⟩ := exists_refusal h.subset.1 hs
    simp [h.behind l hl]
  rw [h.passed, refusals, h.split, List.filterMap_append, List.find?_append, hrest, Option.or_none]
  exact List.find?_congr hdone

theorem Passes.again (h : Passes text events done cleared rest passed) (hpoint : e.point text ≤ reached text events)
    (hcleared : Cleared text (events ++ [e]) cleared) : Passes text (events ++ [e]) done cleared rest passed := by
  have hreached : reached text (events ++ [e]) = reached text events := by
    rw [reached_concat]
    omega
  exact ⟨h.split, hreached ▸ h.behind, hreached ▸ h.ahead, hcleared, hreached ▸ h.cleared_le,
    hreached ▸ h.reached_le, h.passed⟩

theorem Passes.takeUnreadable (h : Passes text events done cleared rest passed) :
    ∃ cleared', Passes text (events ++ [.takeUnreadable passed]) done cleared' rest none := by
  rcases hpassed : passed with _ | piece
  · rw [hpassed] at h
    exact ⟨cleared, h.again (Nat.zero_le _) (h.since.concat rfl)⟩
  · have hreached : reached text (events ++ [.takeUnreadable (some piece)]) = reached text events := by
      simp [reached_concat, Event.point]
    refine ⟨reached text events, h.split, hreached ▸ h.behind, hreached ▸ h.ahead, .handing piece, ?_, ?_, ?_⟩
    · omega
    · rw [hreached]
      exact h.reached_le
    · -- what has been passed ends before the point reached
      rw [eq_comm, List.find?_eq_none]
      intro s hs
      obtain ⟨l, hl, rfl, hlt⟩ := exists_refusal h.subset.1 hs
      have hbehind := h.behind l hl
      simp only [decide_eq_true_eq]
      omega

theorem stop_le_of_mem {l : Lexeme} (h : l ∈ Lexeme.scan text) : l.span.stop ≤ text.utf8ByteSize := by
  obtain ⟨before, c, more, hparts, -⟩ := Lexeme.exists_parts h
  have hbytes := congrArg Lexeme.byteLength hparts.text
  rw [Lexeme.byteLength_toList, Lexeme.byteLength_append, Lexeme.byteLength_append] at hbytes
  have hstop := hparts.stop
  omega

theorem Passes.move {moved : List Lexeme} (h : Passes text events done cleared (moved ++ rest) passed)
    (hle : reached text events ≤ e.point text) (hmoved : ∀ l ∈ moved, l.span.stop ≤ e.point text)
    (hrest : ∀ l ∈ rest, e.point text ≤ l.span.start) (hend : e.point text ≤ text.utf8ByteSize)
    (he : e.handsOut = false) :
    Passes text (events ++ [e]) (done ++ moved) cleared rest (passed.or (moved.filterMap refusal?).head?) := by
  have hreached : reached text (events ++ [e]) = e.point text := by
    rw [reached_concat]
    omega
  have hcleared := h.cleared_le
  have hfound : (moved.filterMap refusal?).find? (fun s => decide (cleared ≤ s.start))
      = (moved.filterMap refusal?).head? := by
    rcases hspans : moved.filterMap refusal? with _ | ⟨s, spans⟩
    · rfl
    · have hs : s ∈ moved.filterMap refusal? := hspans ▸ List.mem_cons_self
      obtain ⟨l, hl, rfl, -⟩ := exists_refusal (fun l hl => h.subset.2 (List.mem_append_left rest hl)) hs
      have hahead := h.ahead l (List.mem_append_left rest hl)
      rw [List.find?_cons_of_pos (by rw [decide_eq_true_eq]; omega), List.head?_cons]
  refine ⟨by rw [h.split, List.append_assoc], ?_, ?_, h.since.concat he, by omega, by omega, ?_⟩
  · intro l hl
    rw [hreached]
    rcases List.mem_append.mp hl with hl | hl
    · have hbehind := h.behind l hl
      omega
    · exact hmoved l hl
  · rw [hreached]
    exact hrest
  · rw [List.filterMap_append, List.find?_append, ← h.passed, hfound]

theorem Passes.around {skipped behind : List Lexeme} {l : Lexeme}
    (h : Passes text events done cleared (skipped ++ l :: behind) passed) :
    (∀ a ∈ skipped, a.span.stop ≤ l.span.start) ∧ ∀ b ∈ behind, l.span.stop ≤ b.span.start := by
  have hordered := ordered_scan text
  rw [h.split] at hordered
  obtain ⟨-, hbehind, hbefore⟩ := List.pairwise_append.mp (List.pairwise_append.mp hordered).2.1
  exact ⟨fun a ha => (hbefore a ha l List.mem_cons_self).2, fun b hb => ((List.pairwise_cons.mp hbehind).1 b hb).2⟩

theorem Passes.advance (h : Passes text events done cleared rest passed)
    (hpoint : e.point text = endOf text (Reader.advance passed rest).1) (he : e.handsOut = false) :
    ∃ done', Passes text (events ++ [e]) done' cleared (Reader.advance passed rest).2.1
      (Reader.advance passed rest).2.2 := by
  have hall := h.subset.2
  obtain ⟨skipped, -, ⟨t, behind, rfl, hadvance⟩ | ⟨rfl, hadvance⟩⟩ := advance_spec passed rest
  · rw [hadvance] at hpoint ⊢
    replace hpoint : e.point text = t.span.stop := hpoint
    obtain ⟨hbefore, hbehind⟩ := h.around
    have hmem : Lexeme.token t ∈ skipped ++ .token t :: behind := by simp
    have hlt : t.span.start < t.span.stop := start_lt_stop (hall hmem)
    have hstart : reached text events ≤ t.span.start := h.ahead _ hmem
    rw [List.append_cons] at h
    have hend := stop_le_of_mem (hall hmem)
    have hmoved := h.move (by omega) ?_ ?_ (by rw [hpoint]; exact hend) he
    · rw [List.filterMap_append, List.filterMap_cons_none (by rfl), List.filterMap_nil, List.append_nil] at hmoved
      exact ⟨_, hmoved⟩
    · refine List.forall_mem_append.mpr ⟨fun l hl => ?_, List.forall_mem_singleton.mpr (by rw [hpoint]; rfl)⟩
      have hstop : l.span.stop ≤ t.span.start := hbefore l hl
      omega
    · intro l hl
      rw [hpoint]
      exact hbehind l hl
  · rw [hadvance] at hpoint ⊢
    replace hpoint : e.point text = text.utf8ByteSize := hpoint
    have hle := h.reached_le
    rw [← List.append_nil rest] at h
    exact ⟨_, h.move (by omega) (fun l hl => hpoint ▸ stop_le_of_mem (hall hl)) (by simp) (by omega) he⟩

end passes

section stands

variable {text : String} {events : List Event} {r : Reader}

theorem stands_ofText (text : String) : Stands text [] (ofText text) := by
  refine ⟨rfl, [], 0, rfl, ?_, ?_, .start ?_, ?_, ?_, rfl⟩ <;> simp [reached]

theorem advance_tokens (passed : Option Span) (rest : List Lexeme) :
    (advance passed rest).1 = (rest.filterMap token?).head?
      ∧ (advance passed rest).2.1.filterMap token? = (rest.filterMap token?).tail := by
  obtain ⟨skipped, hskipped, h⟩ := advance_spec passed rest
  have hnone : skipped.filterMap token? = [] := List.filterMap_eq_nil_iff.mpr hskipped
  rcases h with ⟨t, behind, rfl, hadvance⟩ | ⟨rfl, hadvance⟩
  · have htoken : (Lexeme.token t :: behind).filterMap token? = t :: behind.filterMap token? := rfl
    rw [hadvance, List.filterMap_append, hnone, htoken]
    exact ⟨rfl, rfl⟩
  · rw [hadvance, hnone]
    exact ⟨rfl, rfl⟩

theorem TokensAhead.advance (h : TokensAhead text events r) (hahead : r.ahead = none) :
    (Reader.advance r.passed r.rest).1 = (Token.ofText text)[events.countP Event.isNext]?
      ∧ (Token.ofText text).drop (events.countP Event.isNext + 1)
        = (Reader.advance r.passed r.rest).2.1.filterMap token? := by
  obtain ⟨hfound, hleft⟩ := advance_tokens r.passed r.rest
  simp only [TokensAhead, hahead] at h
  rw [hfound, hleft, ← h, List.head?_drop, List.tail_drop]
  exact ⟨rfl, rfl⟩

theorem TokensAhead.again {r' : Reader} {e : Event} (h : TokensAhead text events r) (he : e.isNext = false)
    (hahead : r'.ahead = r.ahead) (hrest : r'.rest = r.rest) : TokensAhead text (events ++ [e]) r' := by
  have hcount : (events ++ [e]).countP Event.isNext = events.countP Event.isNext := by simp [he]
  have hle : reached text events ≤ reached text (events ++ [e]) := by
    rw [reached_concat]
    omega
  unfold TokensAhead at h ⊢
  rw [hahead, hrest, hcount]
  cases hfound : r.ahead with
  | none => simpa only [hfound] using h
  | some found =>
    simp only [hfound] at h
    exact ⟨h.1, h.2.1, Nat.le_trans h.2.2 hle⟩

theorem Stands.next (h : Stands text events r) :
    Answers text events (.next r.next.1) ∧ Stands text (events ++ [.next r.next.1]) r.next.2 := by
  obtain ⟨htokens, done, cleared, hpasses⟩ := h
  unfold Reader.next
  rcases hahead : r.ahead with _ | found
  · obtain ⟨hfound, hleft⟩ := htokens.advance hahead
    obtain ⟨done', hpasses'⟩ := hpasses.advance (e := .next (advance r.passed r.rest).1) rfl rfl
    refine ⟨hfound ▸ .next, ?_, done', cleared, hpasses'⟩
    simpa [TokensAhead, Event.isNext] using hleft
  · simp only [TokensAhead, hahead] at htokens
    obtain ⟨hfound, hleft, hend⟩ := htokens
    refine ⟨hfound ▸ .next, ?_, done, cleared, hpasses.again hend (hpasses.since.concat rfl)⟩
    simpa [TokensAhead, Event.isNext] using hleft

theorem Stands.peek (h : Stands text events r) :
    Answers text events (.peek r.peek.1) ∧ Stands text (events ++ [.peek r.peek.1]) r.peek.2 := by
  obtain ⟨htokens, done, cleared, hpasses⟩ := h
  unfold Reader.peek
  rcases hahead : r.ahead with _ | found
  · obtain ⟨hfound, hleft⟩ := htokens.advance hahead
    obtain ⟨done', hpasses'⟩ := hpasses.advance (e := .peek (advance r.passed r.rest).1) rfl rfl
    refine ⟨hfound ▸ .peek, ?_, done', cleared, hpasses'⟩
    simp [TokensAhead, Event.isNext, hfound, hleft, reached_concat, Event.point]
  · have hsame := htokens
    simp only [TokensAhead, hahead] at hsame
    obtain ⟨hfound, -, hend⟩ := hsame
    exact ⟨hfound ▸ .peek, htokens.again rfl rfl rfl, done, cleared, hpasses.again hend (hpasses.since.concat rfl)⟩

theorem Stands.takeUnreadable (h : Stands text events r) :
    Answers text events (.takeUnreadable r.takeUnreadable.1)
      ∧ Stands text (events ++ [.takeUnreadable r.takeUnreadable.1]) r.takeUnreadable.2 := by
  obtain ⟨htokens, done, cleared, hpasses⟩ := h
  obtain ⟨cleared', hpasses'⟩ := hpasses.takeUnreadable
  refine ⟨?_, htokens.again rfl rfl rfl, done, cleared', hpasses'⟩
  have hanswer := Answers.takeUnreadable hpasses.since
  rw [← hpasses.passed_eq] at hanswer
  exact hanswer

theorem Stands.answer (h : Stands text events r) (call : Call) :
    Answers text events (r.answer call).1 ∧ Stands text (events ++ [(r.answer call).1]) (r.answer call).2 := by
  cases call with
  | next => exact h.next
  | peek => exact h.peek
  | takeUnreadable => exact h.takeUnreadable

theorem Stands.run (h : Stands text events r) (calls : List Call) :
    ∀ before e after, r.run calls = before ++ e :: after → Answers text (events ++ before) e := by
  induction calls generalizing events r with
  | nil =>
    intro before e after hsplit
    simp [Reader.run] at hsplit
  | cons call calls ih =>
    intro before e after hsplit
    obtain ⟨hanswers, hstands⟩ := h.answer call
    rw [Reader.run] at hsplit
    rcases before with _ | ⟨first, before⟩
    · obtain ⟨rfl, -⟩ := List.cons.inj hsplit
      rw [List.append_nil]
      exact hanswers
    · obtain ⟨rfl, hrest⟩ := List.cons.inj hsplit
      rw [List.append_cons]
      exact ih hstands before e after hrest

end stands

theorem map_call_run (r : Reader) (calls : List Call) : (r.run calls).map Event.call = calls := by
  induction calls generalizing r with
  | nil => rfl
  | cons call calls ih =>
    rw [run, List.map_cons, ih]
    cases call <;> rfl

/-- **Looking ahead changes nothing.** A reader of a text answers all calls, and each as the tokens and the unreadable
pieces of the text say. What a look ahead shows is what the next call for a token takes. -/
theorem answers_of_calls (text : String) (calls : List Call) :
    ((ofText text).run calls).map Event.call = calls
      ∧ (∀ before e after, (ofText text).run calls = before ++ e :: after → Answers text before e)
      ∧ ∀ before found between taken after,
        (ofText text).run calls = before ++ .peek found :: (between ++ .next taken :: after) →
        (∀ e ∈ between, e.isNext = false) → taken = found := by
  have hanswers := (stands_ofText text).run calls
  refine ⟨map_call_run _ calls, hanswers, fun before found between taken after hsplit hbetween => ?_⟩
  have hpeek := hanswers before _ _ hsplit
  have hnext := hanswers (before ++ .peek found :: between) (.next taken) after (by rw [hsplit]; simp)
  have hnone : between.countP Event.isNext = 0 := by
    rw [List.countP_eq_zero]
    simpa using hbetween
  have hcount : (before ++ .peek found :: between).countP Event.isNext = before.countP Event.isNext := by
    rw [List.countP_append, List.countP_cons_of_neg (by simp [Event.isNext]), hnone, Nat.add_zero]
  rw [List.nil_append] at hpeek hnext
  cases hpeek
  generalize hevent : Event.next taken = e at hnext
  cases hnext with
  | next =>
    rw [hcount] at hevent
    exact Event.next.inj hevent
  | _ => cases hevent

end Reader

end EntityModel
