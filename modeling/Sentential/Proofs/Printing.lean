import Sentential.Proofs.Lexeme
import Sentential.Proofs.Parsing
import Sentential.Sentence.Printer

namespace Sentential

open Text Grammar Token

-- With or without blanks before it, the text is read as the tokens where the rest follows.
def Text.Spells (xs : List Char) (ts : List Token) (rest : List Char) : Prop :=
  ∀ (bs : List Char) {c c' : Cursor}, (∀ b ∈ bs, isBlank b) → c.Passes (bs ++ xs) c' →
    c'.rest = rest → c.Reads ts c'

namespace Text.Spells

variable {xs ys rest : List Char} {t : Token} {ts us : List Token}

theorem lexeme (h : IsLexeme xs t) (hs : Separated xs rest) : Spells xs [t] rest := by
  intro bs c c' hb hp hr
  have hn := (Cursor.next_eq_ok_iff h.ne_finish).mpr ⟨bs, xs, hp, hb, h, hr ▸ hs⟩
  exact Cursor.Reads.single_iff.mpr ⟨hn, h.ne_finish⟩

theorem append (h : Spells xs ts (ys ++ rest)) (h' : Spells ys us rest) :
    Spells (xs ++ ys) (ts ++ us) rest := by
  intro bs c c'' hb hp hr
  rw [← List.append_assoc] at hp
  have ⟨c', hp, hp'⟩ := hp.split
  exact (h bs hb hp (hr ▸ hp'.rest)).append (h' [] nofun hp' hr)

theorem append_blank (h : Spells xs ts (' ' :: (ys ++ rest))) (h' : Spells ys us rest) :
    Spells (xs ++ ' ' :: ys) (ts ++ us) rest := by
  intro bs c c'' hb hp hr
  rw [← List.append_assoc] at hp
  have ⟨c', hp, hp'⟩ := hp.split
  exact (h bs hb hp (hr ▸ hp'.rest)).append (h' [' '] (List.forall_mem_singleton.mpr rfl) hp' hr)

theorem parens (h : Spells xs ts (')' :: rest)) :
    Spells ('(' :: xs ++ [')']) (.leftParen :: ts ++ [.rightParen]) rest :=
  (lexeme .leftParen (.of_not_isWord Bool.false_ne_true)).append
    (h.append (lexeme .rightParen (.of_not_isWord Bool.false_ne_true)))

end Text.Spells

theorem Token.separated_blank (xs rest : List Char) : Separated xs (' ' :: rest) := by
  intro _ x hx
  cases hx
  exact not_isWordChar_of_isBlank (by decide)

theorem Token.isLexeme_connective (k : Connective) : IsLexeme k.token.text.toList k.token := by
  cases k
  case and => exact .and
  case or => exact .or
  case implies => exact .implies
  case iff => exact .iff

namespace Sentence

variable {s l r : Sentence} {v : Var}

-- The text of the sentence reads as an operand, unless a word at its end goes on.
def ReadsBack (s : Sentence) : Prop :=
  ∀ rest : List Char, (∀ x ∈ rest.head?, ¬isWordChar x) →
    ∃ ts, IsOperand ts s ∧ Spells s.text.toList ts rest

theorem toList_text_not (s : Sentence) :
    s.not.text.toList = '(' :: ("NOT".toList ++ ' ' :: s.text.toList) ++ [')'] := by
  simp [text]

theorem toList_text_join (k : Connective) (l r : Sentence) : (k.join l r).text.toList =
    '(' :: (l.text.toList ++ ' ' :: (k.token.text.toList ++ ' ' :: r.text.toList)) ++ [')'] := by
  cases k <;> simp [text, Connective.join, Connective.token, Token.text]

namespace ReadsBack

theorem lexeme {t : Token} (h : IsLexeme s.text.toList t) (ho : IsOperand [t] s) : s.ReadsBack :=
  fun _ hr => ⟨_, ho, .lexeme h fun _ => hr⟩

theorem before_blank (h : s.ReadsBack) (rest : List Char) :
    ∃ ts, IsOperand ts s ∧ Spells s.text.toList ts (' ' :: rest) :=
  h _ (by simpa using not_isWordChar_of_isBlank (by decide))

theorem before_rightParen (h : s.ReadsBack) (rest : List Char) :
    ∃ ts, IsOperand ts s ∧ Spells s.text.toList ts (')' :: rest) :=
  h _ (by simpa using by decide +kernel)

theorem not (h : s.ReadsBack) : s.not.ReadsBack := by
  intro rest _
  have ⟨ts, ho, hs⟩ := h.before_rightParen rest
  have hn : IsLexeme "NOT".toList .not := .not
  refine ⟨_, .parens (.not (.operand ho)), ?_⟩
  exact toList_text_not s ▸ .parens ((Spells.lexeme hn (separated_blank _ _)).append_blank hs)

-- After the operand come a connective and whatever else there is.
theorem before_connective (h : s.ReadsBack) (k : Connective) {xs rest : List Char} {us : List Token}
    (hs : Spells xs us rest) : ∃ ts, IsOperand ts s ∧
      Spells (s.text.toList ++ ' ' :: (k.token.text.toList ++ ' ' :: xs)) (ts ++ k.token :: us) rest := by
  have hk := (Spells.lexeme (isLexeme_connective k) (separated_blank _ _)).append_blank hs
  have ⟨ts, ho, ht⟩ := h.before_blank (k.token.text.toList ++ ' ' :: xs ++ rest)
  exact ⟨ts, ho, ht.append_blank hk⟩

theorem join (k : Connective) (hl : l.ReadsBack) (hr : r.ReadsBack) : (k.join l r).ReadsBack := by
  intro rest _
  have ⟨us, hor, hsr⟩ := hr.before_rightParen rest
  have ⟨ts, hol, hs⟩ := hl.before_connective k hsr
  refine ⟨_, .parens (.join k hol (.operand hor)), ?_⟩
  exact toList_text_join k l r ▸ .parens hs

end ReadsBack

theorem readsBack (h : ∀ v ∈ s.vars, v.IsReadable) : s.ReadsBack := by
  induction s using induction_join
  case truth => exact .lexeme .truth .truth
  case falsity => exact .lexeme .falsity .falsity
  case var v => exact .lexeme (.name (h v (by simp [vars]))) (.name v.name)
  case not s hi => exact (hi h).not
  case join k l r hl hr =>
    have hl := hl fun v hv => h v (Connective.mem_vars_join.mpr (.inl hv))
    have hr := hr fun v hv => h v (Connective.mem_vars_join.mpr (.inr hv))
    exact hl.join k hr

-- A text that spells a sentence to its end is parsed as that sentence.
theorem parse_of_spells {text : String} {ts : List Token} (hs : Spells text.toList ts [])
    (h : IsSentence ts s) : parse text = .ok s := by
  have hp : (Lexer.ofString text).cursor.Passes text.toList ⟨0 + byteSize text.toList, []⟩ :=
    ⟨(List.append_nil _).symm, rfl⟩
  have hr := Lexer.readsAll_iff.mpr ⟨_, hs [] nofun hp rfl, rfl⟩
  exact parse_eq_ok_iff.mpr ⟨ts, hr, h⟩

theorem parse_text (h : ∀ v ∈ s.vars, v.IsReadable) : parse s.text = .ok s :=
  have ⟨_, ho, hs⟩ := readsBack h [] nofun
  parse_of_spells hs (.operand ho)

theorem isReadable_of_parse {text : String} (h : parse text = .ok s) (hv : v ∈ s.vars) :
    v.IsReadable := by
  have ⟨ts, hr, hts⟩ := parse_eq_ok_iff.mp h
  have ⟨c, hr, _⟩ := Lexer.readsAll_iff.mp hr
  exact hr.isReadable (hts.name_mem hv)

theorem parse_text_iff (s : Sentence) : parse s.text = .ok s ↔ ∀ v ∈ s.vars, v.IsReadable :=
  ⟨fun h _ hv => isReadable_of_parse h hv, parse_text⟩

end Sentence
end Sentential
