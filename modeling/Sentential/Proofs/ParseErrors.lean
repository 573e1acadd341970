import Mathlib.Control.Monad.Basic
import Sentential.Proofs.Lexeme
import Sentential.Proofs.Parsing
import Sentential.Proofs.Viability

namespace Sentential

open Text Grammar

-- The error is what there is to be read at the place: a lexical error, or a token and where it starts.
inductive Cursor.Shows (c : Cursor) : ParseError → Prop
  | lexical {e : LexError} : c.next.1 = .error e → c.Shows (.lexical e)
  | token {t : Token} (expected : Expected) :
    c.next.1 = .ok t → c.Shows (.unexpectedToken (c.skipWhile isBlank).offset t expected)

namespace Grammar.Place

variable {t : Token}

-- If the error is about a token, no sentence goes on with it.
def Forbids (p : Place) : ParseError → Prop
  | .lexical _ => True
  | .unexpectedToken _ t _ => p.step t = none

theorem step_after_succ (n : Nat) (hp : t ≠ .rightParen) (hk : ∀ k : Connective, t ≠ k.token) :
    (after (n + 1)).step t = none := by
  cases t
  case rightParen => exact absurd rfl hp
  case and => exact absurd rfl (hk .and)
  case or => exact absurd rfl (hk .or)
  case implies => exact absurd rfl (hk .implies)
  case iff => exact absurd rfl (hk .iff)
  all_goals rfl

theorem step_after_zero (hf : t ≠ .finish) (hk : ∀ k : Connective, t ≠ k.token) :
    (after 0).step t = none := by
  cases t
  case finish => exact absurd rfl hf
  case and => exact absurd rfl (hk .and)
  case or => exact absurd rfl (hk .or)
  case implies => exact absurd rfl (hk .implies)
  case iff => exact absurd rfl (hk .iff)
  all_goals rfl

end Grammar.Place

-- Reading a sentence from the place on, inside of so many parentheses, comes to where the error is.
inductive Cursor.GetsStuck (c : Cursor) (depth : Nat) (e : ParseError) : Prop
  | intro {ts : List Token} {c' : Cursor} {p : Place} (reads : c.Reads ts c') (viable : Viable ts)
    (run : (Place.before depth).run ts = some p) (shows : c'.Shows e) (forbids : p.Forbids e)

namespace Cursor.GetsStuck

variable {c c' c'' : Cursor} {e : ParseError} {us : List Token} {left : Sentence} {n : Nat}

theorem not (hn : c.next = (.ok .not, c')) : c'.GetsStuck n e → c.GetsStuck n e
  | intro reads viable run shows forbids =>
    intro (.cons hn (by decide) reads) viable.not run shows forbids

theorem leftParen (hn : c.next = (.ok .leftParen, c')) : c'.GetsStuck (n + 1) e → c.GetsStuck n e
  | intro reads viable run shows forbids =>
    intro (.cons hn (by decide) reads) viable.leftParen run shows forbids

theorem joined (k : Connective) (ho : IsOperand us left) (hu : c.Reads us c')
    (hn : c'.next = (.ok k.token, c'')) (h : c''.GetsStuck n e) : c.GetsStuck n e := by
  obtain @⟨ts, _, p, reads, viable, run, shows, forbids⟩ := h
  have hk : k.token ≠ .finish := by cases k <;> nofun
  have hr : (Place.before n).run (us ++ k.token :: ts) = some p := by
    rw [Place.run_append, Place.run_of_isOperand n ho, Option.bind_some, Place.run_cons,
      Place.step_after_connective, Option.bind_some, run]
  exact intro (hu.append (.cons hn hk reads)) (viable.joined k ho) hr shows forbids

end Cursor.GetsStuck

theorem Cursor.Stops.next_ne_error {c : Cursor} {e : LexError} (h : c.Stops) : c.next.1 ≠ .error e :=
  have ⟨_, ht, _⟩ := h
  fun he => nomatch ht.symm.trans he

namespace Parser

variable {l l' : Lexer} {t : Token} {p : Place} {c : Cursor} {s left : Sentence} {e : ParseError}
  {expected : Expected} {us : List Token} {n : Nat}

theorem Step.andThen_error_iff {α β : Type} {x : Step l α}
    {f : (a : α) → (l' : Lexer) → x.Yields a l' → Step l' β} :
    (x.andThen f).result = .error e ↔
      x.result = .error e ∨ ∃ a l₁, ∃ h : x.Yields a l₁, (f a l₁ h).result = .error e := by
  obtain ⟨r, l₀, hle⟩ := x
  cases r
  case error e' =>
    constructor
    case mp => exact fun h => .inl (congrArg _ (Except.error.inj h))
    case mpr =>
      rintro (h | ⟨_, _, h, _⟩)
      · exact congrArg _ (Except.error.inj h)
      · exact nomatch h.result
  case ok a =>
    constructor
    case mp => exact fun h => .inr ⟨a, l₀, ⟨rfl, rfl⟩, h⟩
    case mpr =>
      rintro (h | ⟨_, _, ⟨ha, hl⟩, h⟩)
      · exact nomatch h
      · cases ha
        cases hl
        exact h

theorem token_error (h : (token l).result = .error e) :
    ∃ e', l.cursor.next.1 = .error e' ∧ e = .lexical e' := by
  change ofLexer l.cursor.next.1 = .error e at h
  cases hn : l.cursor.next.1
  case ok t => simp [hn, ofLexer] at h
  case error e' =>
    rw [hn] at h
    exact ⟨e', rfl, (Except.error.inj h).symm⟩

-- The place of the complaint is where the token starts, since that is the token last read.
theorem shows_of_unexpected {α : Type} (hn : l.next = (.ok t, l'))
    (h : (unexpected t expected l' : Step l' α).result = .error e) :
    l.cursor.Shows e ∧ e = .unexpectedToken l'.tokenStart t expected := by
  have he : e = .unexpectedToken l'.tokenStart t expected := (Except.error.inj h).symm
  have hl : l'.tokenStart = (l.cursor.skipWhile isBlank).offset :=
    congrArg (fun r => r.2.tokenStart) hn.symm
  refine ⟨?_, he⟩
  rw [he, hl]
  exact .token expected (congrArg Prod.fst hn)

theorem expect_error (h : (expect t expected l).result = .error e) (hs : l.cursor.Stops)
    (hp : ∀ u, u ≠ t → (∀ k : Connective, u ≠ k.token) → p.step u = none) :
    l.cursor.Shows e ∧ p.Forbids e := by
  rw [expect, Step.andThen_error_iff] at h
  obtain h | ⟨u, l₁, hu, h⟩ := h
  case inl =>
    obtain ⟨e', hn, rfl⟩ := token_error h
    exact ⟨.lexical hn, trivial⟩
  case inr =>
    split at h
    case isTrue => cases h
    case isFalse hne =>
      have hn := token_yields_iff.mp hu
      obtain ⟨hc, rfl⟩ := shows_of_unexpected hn h
      obtain ⟨v, hv, hk⟩ := hs
      cases (congrArg Prod.fst (Lexer.cursor_next hn)).symm.trans hv
      exact ⟨hc, hp u hne hk⟩

theorem connective_error (h : (connective l).result = .error e) :
    ∃ e', l.cursor.next.1 = .error e' ∧ e = .lexical e' := by
  cases hn : l.mark.next.1
  case error e' => exact ⟨e', hn, Except.error.inj (h.symm.trans (connective_of_error hn))⟩
  case ok t =>
    -- A mark was set before the token was read, so there is always a place to go back to.
    cases ht : connective? t
    case none => exact nomatch h.symm.trans (connective_of_none hn ht).result
    case some k => exact nomatch h.symm.trans (connective_of_some hn ht).result

theorem continued_error (h : (continued left l).result = .error e) :
    (∃ e', l.cursor.next.1 = .error e' ∧ e = .lexical e') ∨
      ∃ (k : Connective) (l₁ : Lexer), l.cursor.next = (.ok k.token, l₁.cursor) ∧
        l₁.remaining < l.remaining ∧ (sentence l₁).result = .error e := by
  rw [continued, Step.andThen_error_iff] at h
  obtain h | ⟨o, l₁, ho, h⟩ := h
  case inl => exact .inl (connective_error h)
  case inr =>
    obtain ⟨rfl, _, _⟩ | ⟨k, rfl, hn⟩ := connective_cases ho
    case inl => cases h
    case inr =>
      obtain h | ⟨_, _, _, h⟩ := Step.andThen_error_iff.mp h
      case inl => exact .inr ⟨k, l₁, hn, connective_lt ho, h⟩
      case inr => cases h

-- After an operand, either the next token cannot be read, or what follows a connective fails.
theorem continued_getsStuck (ho : IsOperand us left) (hu : c.Reads us l.cursor)
    (h : (continued left l).result = .error e)
    (hi : ∀ {l₁}, l₁.remaining < l.remaining → (sentence l₁).result = .error e →
      l₁.cursor.GetsStuck n e) :
    c.GetsStuck n e := by
  obtain ⟨e', hn, rfl⟩ | ⟨k, l₁, hn, hlt, hr⟩ := continued_error h
  case inl =>
    exact .intro hu (.of_isSentence (.operand ho)) (Place.run_of_isOperand n ho) (.lexical hn) trivial
  case inr => exact (hi hlt hr).joined k ho hu hn

theorem sentence_error (h : (sentence l).result = .error e) :
    (∃ e', l.cursor.next.1 = .error e' ∧ e = .lexical e') ∨
    (l.cursor.Shows e ∧ ∀ n, (Place.before n).Forbids e) ∨
    (∃ l₁, l.next = (.ok .not, l₁) ∧ ((sentence l₁).result = .error e ∨
      ∃ inner l₂, (sentence l₁).Yields inner l₂ ∧ (continued (.not inner) l₂).result = .error e)) ∨
    (∃ l₁, l.next = (.ok .leftParen, l₁) ∧ ((sentence l₁).result = .error e ∨
      ∃ inner l₂, (sentence l₁).Yields inner l₂ ∧
        ((expect .rightParen .rightParen l₂).result = .error e ∨
          ∃ l₃, l₂.next = (.ok .rightParen, l₃) ∧ (continued inner l₃).result = .error e))) ∨
    (∃ t a l₁, l.next = (.ok t, l₁) ∧ IsOperand [t] a ∧ (continued a l₁).result = .error e) := by
  rw [sentence, Step.andThen_error_iff] at h
  obtain h | ⟨t, l₁, ht, h⟩ := h
  case inl => exact .inl (token_error h)
  case inr =>
    have hn := token_yields_iff.mp ht
    cases t
    case not =>
      refine .inr <| .inr <| .inl ⟨l₁, hn, ?_⟩
      obtain h | ⟨inner, l₂, hi, h⟩ := Step.andThen_error_iff.mp h
      case inl => exact .inl h
      case inr => exact .inr ⟨inner, l₂, hi, h⟩
    case leftParen =>
      refine .inr <| .inr <| .inr <| .inl ⟨l₁, hn, ?_⟩
      obtain h | ⟨inner, l₂, hi, h⟩ := Step.andThen_error_iff.mp h
      case inl => exact .inl h
      case inr =>
        refine .inr ⟨inner, l₂, hi, ?_⟩
        obtain h | ⟨_, l₃, he, h⟩ := Step.andThen_error_iff.mp h
        case inl => exact .inl h
        case inr => exact .inr ⟨l₃, expect_yields_iff.mp he, h⟩
    case truth => exact .inr <| .inr <| .inr <| .inr ⟨_, _, l₁, hn, .truth, h⟩
    case falsity => exact .inr <| .inr <| .inr <| .inr ⟨_, _, l₁, hn, .falsity, h⟩
    case name m => exact .inr <| .inr <| .inr <| .inr ⟨_, _, l₁, hn, .name m, h⟩
    all_goals
      obtain ⟨hc, rfl⟩ := shows_of_unexpected hn h
      exact .inr <| .inl ⟨hc, fun _ => rfl⟩

-- Looking ahead for a connective does not get in the way: a token ahead that is none is read again, by a
-- reader that cannot do with it either.
theorem sentence_getsStuck {l : Lexer} {e : ParseError} (h : (sentence l).result = .error e) (n : Nat) :
    l.cursor.GetsStuck n e := by
  obtain ⟨e', hn, rfl⟩ | ⟨hc, hp⟩ | ⟨l₁, hn, h⟩ | ⟨l₁, hn, h⟩ | ⟨t, a, l₁, hn, ha, h⟩ := sentence_error h
  case inl => exact .intro (.nil _) .nil rfl (.lexical hn) trivial
  case inr.inl => exact .intro (.nil _) .nil rfl hc (hp n)
  case inr.inr.inl =>
    have := Lexer.remaining_lt_of_next hn (by decide)
    obtain h | ⟨inner, l₂, hi, h⟩ := h
    case inl => exact (sentence_getsStuck h n).not (Lexer.cursor_next hn)
    case inr =>
      -- The sentence under the negation has seen the next token, and that it is no connective.
      have ⟨_, _, _, hs⟩ := sentence_reads hi
      obtain ⟨_, he, _⟩ | ⟨k, _, hk, _⟩ := continued_error h
      case inl => exact absurd he hs.next_ne_error
      case inr => exact absurd hk hs.next_ne
  case inr.inr.inr.inl =>
    have := Lexer.remaining_lt_of_next hn (by decide)
    obtain h | ⟨inner, l₂, hi, h⟩ := h
    case inl => exact (sentence_getsStuck h (n + 1)).leftParen (Lexer.cursor_next hn)
    case inr =>
      have := hi.le
      have ⟨ts, hts, hr, hs⟩ := sentence_reads hi
      have hr := Cursor.Reads.cons (Lexer.cursor_next hn) (by decide) hr
      obtain h | ⟨l₃, hp, h⟩ := h
      case inl =>
        have ⟨hc, hp⟩ := expect_error h hs fun _ => Place.step_after_succ n
        exact .intro hr (Viable.of_isSentence hts).leftParen (Place.run_of_isSentence (n + 1) hts) hc hp
      case inr =>
        have := Lexer.remaining_le_of_next hp
        have hp := Cursor.Reads.single_iff.mpr ⟨Lexer.cursor_next hp, by decide⟩
        exact continued_getsStuck (.parens hts) (hr.append hp) h fun _ h => sentence_getsStuck h n
  case inr.inr.inr.inr =>
    have ht : t ≠ .finish := by rintro rfl; cases ha
    have := Lexer.remaining_lt_of_next hn ht
    have hu := Cursor.Reads.single_iff.mpr ⟨Lexer.cursor_next hn, ht⟩
    exact continued_getsStuck ha hu h fun _ h => sentence_getsStuck h n
termination_by l.remaining

theorem complete_getsStuck (h : (complete l).result = .error e) : l.cursor.GetsStuck 0 e := by
  rw [complete, Step.andThen_error_iff] at h
  obtain h | ⟨s, l₁, hs, h⟩ := h
  case inl => exact sentence_getsStuck h 0
  case inr =>
    obtain ⟨ts, hts, hr, hs⟩ := sentence_reads hs
    obtain h | ⟨_, _, _, h⟩ := Step.andThen_error_iff.mp h
    case inl =>
      obtain ⟨hc, hp⟩ := expect_error h hs fun _ => Place.step_after_zero
      exact .intro hr (.of_isSentence hts) (Place.run_of_isSentence 0 hts) hc hp
    case inr => cases h

end Parser

namespace Cursor

theorem finishSymbol_ne_noMark (t : Token) (xs : List Char) (c : Cursor) :
    (finishSymbol t xs c).1 ≠ .error .noMark := by
  induction xs generalizing c
  case nil => rintro ⟨⟩
  case cons x xs hi =>
    rw [finishSymbol]
    split
    case h_1 => rintro ⟨⟩
    case h_2 =>
      dsimp only
      split
      case isTrue => exact hi _
      case isFalse => rintro ⟨⟩

theorem next_ne_noMark (c : Cursor) : c.next.1 ≠ .error .noMark := by
  rw [next, scan]
  split
  case h_1 => rintro ⟨⟩
  case h_2 =>
    dsimp only
    repeat' split
    case isTrue => exact finishSymbol_ne_noMark _ _ _
    case isFalse.isTrue => exact finishSymbol_ne_noMark _ _ _
    all_goals rintro ⟨⟩

end Cursor

-- The token follows after so many bytes of the text, with no blank left before it. It is the end of the
-- text only if nothing follows.
def Token.StandsAt (t : Token) (text : String) (position : Nat) : Prop :=
  ∃ passed rest, text.toList = passed ++ rest ∧ position = byteSize passed ∧
    (∀ x ∈ rest.head?, ¬isBlank x) ∧ t.text.toList <+: rest ∧ (t = .finish → rest = [])

theorem Token.standsAt_of_reads {text : String} {ts : List Token} {c : Cursor} {t : Token}
    (hr : (Lexer.ofString text).cursor.Reads ts c) (ht : c.next.1 = .ok t) :
    t.StandsAt text (c.skipWhile isBlank).offset := by
  have ⟨xs, hp⟩ := hr.passes
  have hp := hp.append (c.skipWhile_passes isBlank)
  refine ⟨_, (c.skipWhile isBlank).rest, hp.rest, hp.offset.trans (Nat.zero_add _),
    c.skipWhile_stops isBlank, ?_⟩
  have hs : (c.skipWhile isBlank).scan = (.ok t, (c.skipWhile isBlank).scan.2) := Prod.ext ht rfl
  obtain ⟨rfl, hn⟩ | ⟨ys, hy, hx, _⟩ := Cursor.scan_cases hs
  case inl => exact ⟨List.nil_prefix, fun _ => hn⟩
  case inr =>
    rw [hx.toList_text, hy.rest]
    exact ⟨List.prefix_append .., fun hf => absurd hf hx.ne_finish⟩

namespace Lexer

variable {l : Lexer} {t : Token}

theorem exists_tokens_of_next (h : l.cursor.next.1 = .ok t) :
    ∃ after, l.tokens.1 = (t, (l.cursor.skipWhile isBlank).offset) :: after := by
  have hn : l.next.1 = .ok t := h
  by_cases ht : t = .finish
  case pos => exact ⟨[], congrArg Prod.fst (ht ▸ tokens_of_finish (ht ▸ hn))⟩
  case neg => exact ⟨_, congrArg Prod.fst (tokens_of_ok hn ht)⟩

end Lexer

namespace Sentence

theorem parse_error_earliest {text : String} {e : ParseError} (h : parse text = .error e) :
    ∃ before : List (Token × Nat), Viable (before.map Prod.fst) ∧
      (∀ position found expected, e = .unexpectedToken position found expected →
        (∃ after, (Lexer.ofString text).tokens.1 = before ++ (found, position) :: after) ∧
        found.StandsAt text position ∧
        ∀ ts s, IsSentence ts s → ¬before.map Prod.fst ++ [found] <+: ts ++ [.finish]) ∧
      ∀ e', e = .lexical e' → (Lexer.ofString text).tokens = (before, some e') ∧ e' ≠ .noMark := by
  obtain ⟨reads, viable, run, shows, forbids⟩ := Parser.complete_getsStuck h
  obtain ⟨before, l, rfl, rfl, hb⟩ := Lexer.tokens_of_reads reads
  refine ⟨before, viable, ?_⟩
  cases shows
  case lexical e hn =>
    refine ⟨nofun, fun e' he => ?_⟩
    cases he
    refine ⟨?_, fun he => l.cursor.next_ne_noMark (he ▸ hn)⟩
    rw [hb, Lexer.tokens_of_error hn, List.append_nil]
  case token t expected hn =>
    refine ⟨fun position found expected he => ?_, nofun⟩
    cases he
    have ⟨after, ha⟩ := Lexer.exists_tokens_of_next hn
    refine ⟨⟨after, by rw [hb, ha]⟩, Token.standsAt_of_reads reads hn, fun ts s hs => ?_⟩
    exact Place.not_isPrefix_of_step run forbids hs

-- The letter before it takes two bytes, and what comes after it cannot even be read.
theorem parse_error_earliest_parens :
    let e := ParseError.unexpectedToken 11 .rightParen .sentence
    parse "NOT (É OR ) ?" = .error e ∧
    ∃ before : List (Token × Nat), Viable (before.map Prod.fst) ∧
      (∃ after, (Lexer.ofString "NOT (É OR ) ?").tokens.1 = before ++ (.rightParen, 11) :: after) ∧
      Token.rightParen.StandsAt "NOT (É OR ) ?" 11 ∧
      ∀ ts s, IsSentence ts s → ¬before.map Prod.fst ++ [.rightParen] <+: ts ++ [.finish] := by
  intro e
  have he : parse "NOT (É OR ) ?" = .error e := by decide +kernel
  obtain ⟨before, hv, ht, _⟩ := parse_error_earliest he
  exact ⟨he, before, hv, ht 11 .rightParen .sentence rfl⟩

end Sentence
end Sentential
