import Sentential.Parser
import Sentential.Proofs.Grammar
import Sentential.Proofs.Lexing

namespace Sentential

open Grammar

namespace Cursor

-- A token follows, and it is no connective.
def Stops (c : Cursor) : Prop :=
  ∃ t, c.next.1 = .ok t ∧ ∀ k : Connective, t ≠ k.token

-- Between the two places stands the sentence, and it does not go on after that.
def ReadsSentence (c : Cursor) (s : Sentence) (c' : Cursor) : Prop :=
  ∃ ts, IsSentence ts s ∧ c.Reads ts c' ∧ c'.Stops

theorem Stops.next_ne {c c' : Cursor} {k : Connective} (h : c.Stops) :
    c.next ≠ (.ok k.token, c') := by
  intro he
  have ⟨t, hn, ht⟩ := h
  exact ht k (Except.ok.inj (hn.symm.trans (congrArg Prod.fst he)))

end Cursor

namespace Parser

namespace Step

variable {l l' : Lexer} {α β : Type} {s : Step l α} {x : α} {y : β}

theorem Yields.unique {x' : α} {l₁ : Lexer} (h : s.Yields x l') (h' : s.Yields x' l₁) :
    x = x' ∧ l' = l₁ :=
  ⟨Except.ok.inj (h.result.symm.trans h'.result), h.lexer.symm.trans h'.lexer⟩

theorem andThen_yields_iff {f : (x : α) → (l' : Lexer) → s.Yields x l' → Step l' β} :
    (s.andThen f).Yields y l' ↔ ∃ x l₁, ∃ h : s.Yields x l₁, (f x l₁ h).Yields y l' := by
  obtain ⟨r, l₀, hle⟩ := s
  cases r
  case error e =>
    refine iff_of_false (fun h => ?_) (fun ⟨_, _, h, _⟩ => ?_)
    · exact nomatch h.result
    · exact nomatch h.result
  case ok x =>
    constructor
    case mp => exact fun h => ⟨x, l₀, ⟨rfl, rfl⟩, h.result, h.lexer⟩
    case mpr =>
      rintro ⟨x', l₁, ⟨hx, hl⟩, h⟩
      cases hx
      cases hl
      exact ⟨h.result, h.lexer⟩

theorem pure_yields_iff {x' : α} : (Step.pure x l).Yields x' l' ↔ x = x' ∧ l = l' := by
  constructor
  case mp => exact fun h => ⟨Except.ok.inj h.result, h.lexer⟩
  case mpr => exact fun ⟨hx, hl⟩ => ⟨congrArg Except.ok hx, hl⟩

theorem not_fail_yields {e : ParseError} : ¬(Step.fail e l : Step l α).Yields x l' :=
  fun h => nomatch h.result

end Step

variable {l l' : Lexer} {t : Token} {k : Connective} {c : Cursor} {s left : Sentence}
  {ts us : List Token}

theorem token_yields_iff : (token l).Yields t l' ↔ l.next = (.ok t, l') := by
  constructor
  case mp => exact fun h => Prod.ext (ofLexer_eq_ok.mp h.result) h.lexer
  case mpr => exact fun h => ⟨ofLexer_eq_ok.mpr (congrArg Prod.fst h), congrArg Prod.snd h⟩

theorem expect_yields_iff {expected : Expected} :
    (expect t expected l).Yields () l' ↔ l.next = (.ok t, l') := by
  rw [expect, Step.andThen_yields_iff]
  constructor
  case mp =>
    rintro ⟨u, l₁, hu, h⟩
    split at h
    case isTrue he =>
      cases (Step.pure_yields_iff.mp h).right
      exact he ▸ token_yields_iff.mp hu
    case isFalse => exact absurd h Step.not_fail_yields
  case mpr =>
    intro h
    refine ⟨t, l', token_yields_iff.mpr h, ?_⟩
    rw [if_pos rfl]
    exact Step.pure_yields_iff.mpr ⟨rfl, rfl⟩

theorem connective?_eq_some : connective? t = some k ↔ t = k.token := by
  cases k <;> cases t <;> simp [connective?, Connective.token]

theorem connective?_eq_none : connective? t = none ↔ ∀ k : Connective, t ≠ k.token := by
  simp only [Option.eq_none_iff_forall_not_mem, Option.mem_def, connective?_eq_some, ne_eq]

theorem connective_of_error {e : LexError} (h : l.mark.next.1 = .error e) :
    (connective l).result = .error (.lexical e) := by
  rw [connective]
  split
  case h_1 he => cases h.symm.trans he; rfl
  case h_2 he => cases h.symm.trans he

theorem connective_of_some (h : l.mark.next.1 = .ok t) (ht : connective? t = some k) :
    (connective l).Yields (some k) l.mark.next.2 := by
  rw [connective]
  split
  case h_1 he => cases h.symm.trans he
  case h_2 he =>
    cases h.symm.trans he
    split
    case h_1 hk => cases ht.symm.trans hk; exact ⟨rfl, rfl⟩
    case h_2 hk => cases ht.symm.trans hk

-- The place to go back to is the one marked before the token was read.
theorem connective_of_none (h : l.mark.next.1 = .ok t) (ht : connective? t = none) :
    (connective l).Yields none { l.mark.next.2 with cursor := l.cursor } := by
  rw [connective]
  split
  case h_1 he => cases h.symm.trans he
  case h_2 he =>
    cases h.symm.trans he
    split
    case h_1 hk => cases ht.symm.trans hk
    case h_2 => exact ⟨rfl, rfl⟩

theorem connective_of_next (h : l.cursor.next = (.ok k.token, c)) :
    ∃ l', (connective l).Yields (some k) l' ∧ l'.cursor = c :=
  have hn : l.mark.next.1 = .ok k.token := congrArg Prod.fst h
  ⟨_, connective_of_some hn (connective?_eq_some.mpr rfl), congrArg Prod.snd h⟩

theorem connective_of_stops (h : l.cursor.Stops) :
    ∃ l', (connective l).Yields none l' ∧ l'.cursor = l.cursor :=
  have ⟨_, hn, ht⟩ := h
  ⟨_, connective_of_none hn (connective?_eq_none.mpr ht), rfl⟩

theorem connective_cases {o : Option Connective} (h : (connective l).Yields o l') :
    (o = none ∧ l.cursor.Stops ∧ l'.cursor = l.cursor) ∨
      ∃ k, o = some k ∧ l.cursor.next = (.ok k.token, l'.cursor) := by
  cases hn : l.mark.next.1
  case error e => exact nomatch h.result.symm.trans (connective_of_error hn)
  case ok t =>
    cases ht : connective? t
    case none =>
      have ⟨ho, hl⟩ := h.unique (connective_of_none hn ht)
      exact .inl ⟨ho, ⟨t, hn, connective?_eq_none.mp ht⟩, hl ▸ rfl⟩
    case some k =>
      have ⟨ho, hl⟩ := h.unique (connective_of_some hn ht)
      cases connective?_eq_some.mp ht
      exact .inr ⟨k, ho, Prod.ext hn (hl ▸ rfl)⟩

theorem continued_cases (h : (continued left l).Yields s l') :
    (s = left ∧ l.cursor.Stops ∧ l'.cursor = l.cursor) ∨
      ∃ (k : Connective) (right : Sentence) (l₁ : Lexer), s = k.join left right ∧
        l.cursor.next = (.ok k.token, l₁.cursor) ∧ l₁.remaining < l.remaining ∧
          (sentence l₁).Yields right l' := by
  rw [continued, Step.andThen_yields_iff] at h
  obtain ⟨o, l₁, ho, h⟩ := h
  obtain ⟨rfl, hs, hl⟩ | ⟨k, rfl, hn⟩ := connective_cases ho
  case inl =>
    obtain ⟨rfl, rfl⟩ := Step.pure_yields_iff.mp h
    exact .inl ⟨rfl, hs, hl⟩
  case inr =>
    obtain ⟨right, l₂, hr, h⟩ := Step.andThen_yields_iff.mp h
    obtain ⟨rfl, rfl⟩ := Step.pure_yields_iff.mp h
    exact .inr ⟨k, right, l₁, rfl, hn, connective_lt ho, hr⟩

theorem continued_of_stops (left : Sentence) (h : l.cursor.Stops) :
    ∃ l', (continued left l).Yields left l' ∧ l'.cursor = l.cursor := by
  have ⟨l₁, hk, hl⟩ := connective_of_stops h
  refine ⟨l₁, ?_, hl⟩
  rw [continued, Step.andThen_yields_iff]
  exact ⟨none, l₁, hk, Step.pure_yields_iff.mpr ⟨rfl, rfl⟩⟩

theorem continued_of_next {right : Sentence} {l₁ : Lexer} (h : (connective l).Yields (some k) l₁)
    (hr : (sentence l₁).Yields right l') : (continued left l).Yields (k.join left right) l' := by
  rw [continued, Step.andThen_yields_iff]
  refine ⟨some k, l₁, h, Step.andThen_yields_iff.mpr ⟨right, l', hr, ?_⟩⟩
  exact Step.pure_yields_iff.mpr ⟨rfl, rfl⟩

theorem sentence_of_not {inner : Sentence} {l₁ l₂ : Lexer} (h : l.next = (.ok .not, l₁))
    (hi : (sentence l₁).Yields inner l₂) (hc : (continued (.not inner) l₂).Yields s l') :
    (sentence l).Yields s l' := by
  rw [sentence, Step.andThen_yields_iff]
  exact ⟨.not, l₁, token_yields_iff.mpr h, Step.andThen_yields_iff.mpr ⟨inner, l₂, hi, hc⟩⟩

theorem sentence_of_parens {inner : Sentence} {l₁ l₂ l₃ : Lexer} (h : l.next = (.ok .leftParen, l₁))
    (hi : (sentence l₁).Yields inner l₂) (hp : l₂.next = (.ok .rightParen, l₃))
    (hc : (continued inner l₃).Yields s l') : (sentence l).Yields s l' := by
  rw [sentence, Step.andThen_yields_iff]
  refine ⟨.leftParen, l₁, token_yields_iff.mpr h, ?_⟩
  refine Step.andThen_yields_iff.mpr ⟨inner, l₂, hi, ?_⟩
  exact Step.andThen_yields_iff.mpr ⟨(), l₃, expect_yields_iff.mpr hp, hc⟩

theorem sentence_of_atom {a : Sentence} {l₁ : Lexer} (h : l.next = (.ok t, l₁))
    (ha : IsOperand [t] a) (hc : (continued a l₁).Yields s l') : (sentence l).Yields s l' := by
  rw [sentence, Step.andThen_yields_iff]
  refine ⟨t, l₁, token_yields_iff.mpr h, ?_⟩
  generalize he : [t] = ts at ha
  cases ha
  case parens => simp at he
  all_goals
    cases he
    exact hc

theorem sentence_cases (h : (sentence l).Yields s l') :
    (∃ inner l₁ l₂, l.next = (.ok .not, l₁) ∧ (sentence l₁).Yields inner l₂ ∧
      (continued (.not inner) l₂).Yields s l') ∨
    (∃ inner l₁ l₂ l₃, l.next = (.ok .leftParen, l₁) ∧ (sentence l₁).Yields inner l₂ ∧
      l₂.next = (.ok .rightParen, l₃) ∧ (continued inner l₃).Yields s l') ∨
    (∃ t a l₁, l.next = (.ok t, l₁) ∧ IsOperand [t] a ∧ (continued a l₁).Yields s l') := by
  rw [sentence, Step.andThen_yields_iff] at h
  obtain ⟨t, l₁, ht, h⟩ := h
  have hn := token_yields_iff.mp ht
  cases t
  case not =>
    have ⟨inner, l₂, hi, hc⟩ := Step.andThen_yields_iff.mp h
    exact .inl ⟨inner, l₁, l₂, hn, hi, hc⟩
  case leftParen =>
    have ⟨inner, l₂, hi, h⟩ := Step.andThen_yields_iff.mp h
    have ⟨_, l₃, he, hc⟩ := Step.andThen_yields_iff.mp h
    exact .inr <| .inl ⟨inner, l₁, l₂, l₃, hn, hi, expect_yields_iff.mp he, hc⟩
  case truth => exact .inr <| .inr ⟨_, _, l₁, hn, .truth, h⟩
  case falsity => exact .inr <| .inr ⟨_, _, l₁, hn, .falsity, h⟩
  case name n => exact .inr <| .inr ⟨_, _, l₁, hn, .name n, h⟩
  all_goals exact absurd h Step.not_fail_yields

-- What follows an operand is either nothing of the sentence, or a connective and the rest of it.
theorem continued_reads (ho : IsOperand us left) (hu : c.Reads us l.cursor)
    (h : (continued left l).Yields s l')
    (hi : ∀ {right l₁}, l₁.remaining < l.remaining → (sentence l₁).Yields right l' →
      l₁.cursor.ReadsSentence right l'.cursor) :
    c.ReadsSentence s l'.cursor := by
  obtain ⟨rfl, hs, hl⟩ | ⟨k, right, l₁, rfl, hn, hlt, hr⟩ := continued_cases h
  case inl => exact ⟨us, .operand ho, hl ▸ hu, hl ▸ hs⟩
  case inr =>
    have ⟨ts, hts, hr, hs⟩ := hi hlt hr
    have hk : k.token ≠ .finish := by cases k <;> nofun
    exact ⟨us ++ k.token :: ts, .join k ho hts, hu.append (.cons hn hk hr), hs⟩

theorem sentence_reads {l l' : Lexer} {s : Sentence} (h : (sentence l).Yields s l') :
    l.cursor.ReadsSentence s l'.cursor := by
  obtain ⟨inner, l₁, l₂, hn, hi, hc⟩ | ⟨inner, l₁, l₂, l₃, hn, hi, hp, hc⟩ | ⟨t, a, l₁, hn, ha, hc⟩ :=
    sentence_cases h
  case inl =>
    have := Lexer.remaining_lt_of_next hn (by decide)
    obtain ⟨ts, hts, hr, hs⟩ := sentence_reads hi
    -- The sentence under the negation took all it could, so no connective is left to join.
    obtain ⟨rfl, _, hl⟩ | ⟨k, _, _, _, hk, _⟩ := continued_cases hc
    case inl => exact ⟨.not :: ts, .not hts, hl ▸ .cons (Lexer.cursor_next hn) (by decide) hr, hl ▸ hs⟩
    case inr => exact absurd hk hs.next_ne
  case inr.inl =>
    have := Lexer.remaining_lt_of_next hn (by decide)
    have := hi.le
    have := Lexer.remaining_le_of_next hp
    obtain ⟨ts, hts, hr, _⟩ := sentence_reads hi
    have hp := Cursor.Reads.single_iff.mpr ⟨Lexer.cursor_next hp, by decide⟩
    have hu := Cursor.Reads.cons (Lexer.cursor_next hn) (by decide) (hr.append hp)
    exact continued_reads (.parens hts) hu hc fun _ => sentence_reads
  case inr.inr =>
    have ht : t ≠ .finish := by rintro rfl; cases ha
    have := Lexer.remaining_lt_of_next hn ht
    have hu := Cursor.Reads.single_iff.mpr ⟨Lexer.cursor_next hn, ht⟩
    exact continued_reads ha hu hc fun _ => sentence_reads
termination_by l.remaining

theorem sentence_of_reads_atom {a : Sentence} (ha : IsOperand [t] a) (h : l.cursor.Reads [t] c) :
    ∃ l₁, l₁.cursor = c ∧ ∀ {s l'}, (continued a l₁).Yields s l' → (sentence l).Yields s l' :=
  have ⟨l₁, hn, hl⟩ := Lexer.next_of_cursor (Cursor.Reads.single_iff.mp h).left
  ⟨l₁, hl, sentence_of_atom hn ha⟩

mutual

theorem sentence_of_isSentence {l : Lexer} {ts : List Token} {s : Sentence} {c : Cursor} :
    IsSentence ts s → l.cursor.Reads ts c → c.Stops →
      ∃ l', (sentence l).Yields s l' ∧ l'.cursor = c
  | .not (s := inner) h, hr, hs => by
    have ⟨_, hn, _, hr⟩ := Cursor.Reads.cons_iff.mp hr
    obtain ⟨l₁, hl₁, rfl⟩ := Lexer.next_of_cursor hn
    obtain ⟨l₂, hl₂, rfl⟩ := sentence_of_isSentence h hr hs
    have ⟨l', hc, hl⟩ := continued_of_stops (.not inner) hs
    exact ⟨l', sentence_of_not hl₁ hl₂ hc, hl⟩
  | .operand h, hr, hs => by
    obtain ⟨l₁, rfl, hl₁⟩ := sentence_of_isOperand h hr
    have ⟨l', hc, hl⟩ := continued_of_stops s hs
    exact ⟨l', hl₁ hc, hl⟩
  | .joined h₁ hj h₂, hr, hs => by
    obtain ⟨k, rfl, rfl⟩ := joins_iff.mp hj
    have ⟨_, hr₁, hr⟩ := Cursor.Reads.append_iff.mp hr
    have ⟨_, hk, _, hr₂⟩ := Cursor.Reads.cons_iff.mp hr
    obtain ⟨l₁, rfl, hl₁⟩ := sentence_of_isOperand h₁ hr₁
    obtain ⟨l₂, hl₂, rfl⟩ := connective_of_next hk
    have ⟨l', hi, hl⟩ := sentence_of_isSentence h₂ hr₂ hs
    exact ⟨l', hl₁ (continued_of_next hl₂ hi), hl⟩

theorem sentence_of_isOperand {l : Lexer} {ts : List Token} {left : Sentence} {c : Cursor} :
    IsOperand ts left → l.cursor.Reads ts c →
      ∃ l₁, l₁.cursor = c ∧
        ∀ {s l'}, (continued left l₁).Yields s l' → (sentence l).Yields s l'
  | .truth, hr => sentence_of_reads_atom .truth hr
  | .falsity, hr => sentence_of_reads_atom .falsity hr
  | .name n, hr => sentence_of_reads_atom (.name n) hr
  | .parens h, hr => by
    have ⟨_, hn, _, hr⟩ := Cursor.Reads.cons_iff.mp hr
    have ⟨_, hr, hp⟩ := Cursor.Reads.append_iff.mp hr
    have hp := (Cursor.Reads.single_iff.mp hp).left
    obtain ⟨l₁, hl₁, rfl⟩ := Lexer.next_of_cursor hn
    obtain ⟨l₂, hl₂, rfl⟩ :=
      sentence_of_isSentence h hr ⟨_, congrArg Prod.fst hp, connective?_eq_none.mp rfl⟩
    have ⟨l₃, hl₃, hl⟩ := Lexer.next_of_cursor hp
    exact ⟨l₃, hl, sentence_of_parens hl₁ hl₂ hl₃⟩

end

theorem sentence_ends_iff : (sentence l).result = .ok s ∧ (sentence l).lexer.cursor = c ↔
    l.cursor.ReadsSentence s c := by
  constructor
  case mp =>
    rintro ⟨h, rfl⟩
    exact sentence_reads ⟨h, rfl⟩
  case mpr =>
    intro ⟨_, hts, hr, hs⟩
    have ⟨_, h, hc⟩ := sentence_of_isSentence hts hr hs
    exact ⟨h.result, h.lexer ▸ hc⟩

theorem complete_yields_iff :
    (complete l).Yields s l' ↔ ∃ l₁, (sentence l).Yields s l₁ ∧ l₁.next = (.ok .finish, l') := by
  rw [complete, Step.andThen_yields_iff]
  constructor
  case mp =>
    rintro ⟨s', l₁, hs, h⟩
    obtain ⟨_, l₂, hf, h⟩ := Step.andThen_yields_iff.mp h
    obtain ⟨rfl, rfl⟩ := Step.pure_yields_iff.mp h
    exact ⟨l₁, hs, expect_yields_iff.mp hf⟩
  case mpr =>
    rintro ⟨l₁, hs, hf⟩
    refine ⟨s, l₁, hs, Step.andThen_yields_iff.mpr ⟨(), l', expect_yields_iff.mpr hf, ?_⟩⟩
    exact Step.pure_yields_iff.mpr ⟨rfl, rfl⟩

end Parser

namespace Sentence

theorem parse_eq_ok_iff {text : String} {s : Sentence} :
    parse text = .ok s ↔ ∃ ts, (Lexer.ofString text).ReadsAll ts ∧ IsSentence ts s := by
  constructor
  case mp =>
    intro h
    have ⟨_, hs, hf⟩ := Parser.complete_yields_iff.mp ⟨h, rfl⟩
    have ⟨ts, hts, hr, _⟩ := Parser.sentence_reads hs
    have hf := congrArg Prod.fst (Lexer.cursor_next hf)
    exact ⟨ts, Lexer.readsAll_iff.mpr ⟨_, hr, hf⟩, hts⟩
  case mpr =>
    intro ⟨ts, hr, hts⟩
    have ⟨c, hr, hf⟩ := Lexer.readsAll_iff.mp hr
    obtain ⟨l₁, hs, rfl⟩ :=
      Parser.sentence_of_isSentence hts hr ⟨_, hf, Parser.connective?_eq_none.mp rfl⟩
    have hf : l₁.next = (.ok .finish, l₁.next.2) := Prod.ext hf rfl
    exact (Parser.complete_yields_iff.mpr ⟨l₁, hs, hf⟩).result

theorem parse_follows_grammar :
    (∀ text s, parse text = .ok s ↔
      ∃ ts, (Lexer.ofString text).ReadsAll ts ∧ IsSentence ts s) ∧
    (∀ ts s s', IsSentence ts s → IsSentence ts s' → s = s') ∧
    ∀ (l : Lexer) (s : Sentence) (c : Cursor),
      (Parser.sentence l).result = .ok s ∧ (Parser.sentence l).lexer.cursor = c ↔
        ∃ ts, IsSentence ts s ∧ l.cursor.Reads ts c ∧ c.Stops :=
  ⟨fun _ _ => parse_eq_ok_iff, fun _ _ _ => IsSentence.unique, fun _ _ _ => Parser.sentence_ends_iff⟩

-- The negation takes all that follows it, and each connective all that follows its operand.
theorem parse_follows_grammar_chain :
    let a := var ⟨"A"⟩
    let b := var ⟨"B"⟩
    let text := "NOT A AND B OR (A => B) <=> A"
    let ts : List Token := [.not, .name "A", .and, .name "B", .or, .leftParen, .name "A", .implies,
      .name "B", .rightParen, .iff, .name "A"]
    let s := not (and a (or b (iff (implies a b) a)))
    (Lexer.ofString text).ReadsAll ts ∧ IsSentence ts s ∧ parse text = .ok s ∧
      ∀ s', IsSentence ts s' → s' = s := by
  intro a b text ts s
  have hr : (Lexer.ofString text).ReadsAll ts := by decide +kernel
  have hi : IsSentence [.name "A", .implies, .name "B"] (implies a b) :=
    .joined (.name "A") .implies <| .operand (.name "B")
  have hs : IsSentence ts s :=
    .not <| .joined (.name "A") .and <| .joined (.name "B") .or <| .joined (.parens hi) .iff <|
      .operand (.name "A")
  obtain ⟨hp, hu, _⟩ := parse_follows_grammar
  exact ⟨hr, hs, (hp _ _).mpr ⟨ts, hr, hs⟩, fun s' h => hu ts s' s h hs⟩

end Sentence
end Sentential
