import Sentential.Lexer

namespace Sentential

open Text

namespace Cursor

-- Reads the next token, passing over the blanks before it.
def next (c : Cursor) : Except LexError Token × Cursor :=
  (c.skipWhile isBlank).scan

-- From the first place, the tokens are read one after the other, which leads to the second place.
inductive Reads : Cursor → List Token → Cursor → Prop
  | nil (c : Cursor) : Reads c [] c
  | cons {c c' c'' : Cursor} {t : Token} {ts : List Token} :
      c.next = (.ok t, c') → t ≠ .finish → Reads c' ts c'' → Reads c (t :: ts) c''

namespace Reads

variable {c c' c'' : Cursor} {t : Token} {ts us : List Token}

theorem append (h : Reads c ts c') (h' : Reads c' us c'') : Reads c (ts ++ us) c'' := by
  induction h
  case nil => exact h'
  case cons hn ht _ hi => exact .cons hn ht (hi h')

theorem nil_iff : Reads c [] c' ↔ c = c' := by
  constructor
  case mp => exact fun h => by cases h; rfl
  case mpr => exact fun h => h ▸ .nil c

theorem cons_iff :
    Reads c (t :: ts) c'' ↔ ∃ c', c.next = (.ok t, c') ∧ t ≠ .finish ∧ Reads c' ts c'' := by
  constructor
  case mp => exact fun h => by cases h with | cons hn ht h => exact ⟨_, hn, ht, h⟩
  case mpr => exact fun ⟨_, hn, ht, h⟩ => .cons hn ht h

theorem single_iff : Reads c [t] c' ↔ c.next = (.ok t, c') ∧ t ≠ .finish := by
  simp [cons_iff, nil_iff]

theorem append_iff : Reads c (ts ++ us) c'' ↔ ∃ c', Reads c ts c' ∧ Reads c' us c'' := by
  constructor
  case mpr => exact fun ⟨_, h, h'⟩ => h.append h'
  case mp =>
    intro h
    induction ts generalizing c
    case nil => exact ⟨c, .nil c, h⟩
    case cons t ts hi =>
      have ⟨_, hn, ht, h⟩ := cons_iff.mp h
      have ⟨c', hts, hus⟩ := hi h
      exact ⟨c', .cons hn ht hts, hus⟩

end Reads
end Cursor

namespace Lexer

variable {l l' : Lexer} {r : Except LexError Token} {c : Cursor} {t : Token} {ts : List Token}
  {e : LexError}

theorem cursor_next (h : l.next = (r, l')) : l.cursor.next = (r, l'.cursor) := by
  cases h
  rfl

theorem next_of_cursor (h : l.cursor.next = (r, c)) : ∃ l', l.next = (r, l') ∧ l'.cursor = c :=
  have hr : l.next.1 = r := congrArg Prod.fst h
  ⟨l.next.2, hr ▸ rfl, congrArg Prod.snd h⟩

theorem remaining_le_of_next (h : l.next = (r, l')) : l'.remaining ≤ l.remaining := by
  cases h
  exact l.remaining_next_le

theorem remaining_lt_of_next (h : l.next = (.ok t, l')) (ht : t ≠ .finish) :
    l'.remaining < l.remaining := by
  have hl : l.next.2 = l' := congrArg Prod.snd h
  exact hl ▸ remaining_next_lt (congrArg Prod.fst h) ht

theorem tokens_of_error (h : l.next.1 = .error e) : l.tokens = ([], some e) := by
  rw [tokens]
  split
  case h_1 he => cases h.symm.trans he; rfl
  case h_2 he => cases h.symm.trans he

theorem tokens_of_finish (h : l.next.1 = .ok .finish) :
    l.tokens = ([(.finish, l.next.2.tokenStart)], none) := by
  rw [tokens]
  split
  case h_1 he => cases h.symm.trans he
  case h_2 he => cases h.symm.trans he; rfl

theorem tokens_of_ok (h : l.next.1 = .ok t) (ht : t ≠ .finish) :
    l.tokens = ((t, l.next.2.tokenStart) :: l.next.2.tokens.1, l.next.2.tokens.2) := by
  rw [tokens]
  split
  case h_1 he => cases h.symm.trans he
  case h_2 he => cases h.symm.trans he; rw [dif_neg ht]

-- The tokens between two places are the first ones of those up to the end.
theorem tokens_of_reads (h : l.cursor.Reads ts c) :
    ∃ (before : List (Token × Nat)) (l' : Lexer), before.map Prod.fst = ts ∧ l'.cursor = c ∧
      l.tokens = (before ++ l'.tokens.1, l'.tokens.2) := by
  induction ts generalizing l
  case nil => exact ⟨[], l, rfl, Cursor.Reads.nil_iff.mp h, rfl⟩
  case cons t ts hi =>
    have ⟨_, hn, ht, h⟩ := Cursor.Reads.cons_iff.mp h
    have hl : l.next.2.cursor = _ := congrArg Prod.snd hn
    have ⟨before, l', hb, hl', he⟩ := hi (l := l.next.2) (hl ▸ h)
    refine ⟨(t, l.next.2.tokenStart) :: before, l', congrArg (t :: ·) hb, hl', ?_⟩
    rw [tokens_of_ok (congrArg Prod.fst hn) ht, he]
    rfl

-- The text is read to its end without an error, and these are its tokens before the end.
def ReadsAll (l : Lexer) (ts : List Token) : Prop :=
  l.tokens.1.map Prod.fst = ts ++ [.finish] ∧ l.tokens.2 = none

instance (l : Lexer) (ts : List Token) : Decidable (l.ReadsAll ts) :=
  inferInstanceAs (Decidable (_ ∧ _))

theorem readsAll_of_ok (h : l.next.1 = .ok t) (ht : t ≠ .finish) :
    l.ReadsAll ts ↔ ∃ us, ts = t :: us ∧ l.next.2.ReadsAll us := by
  rw [ReadsAll, tokens_of_ok h ht]
  cases ts
  case nil => simp [ht]
  case cons u us => simp [ReadsAll, eq_comm, and_assoc]

theorem readsAll_of_finish (h : l.next.1 = .ok .finish) : l.ReadsAll ts ↔ ts = [] := by
  rw [ReadsAll, tokens_of_finish h]
  simp

theorem ReadsAll.reads (h : l.ReadsAll ts) : ∃ c, l.cursor.Reads ts c ∧ c.next.1 = .ok .finish := by
  induction ts generalizing l
  all_goals
    cases hn : l.next.1
    case error e => simp [ReadsAll, tokens_of_error hn] at h
  case nil.ok t =>
    by_cases ht : t = .finish
    case pos => exact ⟨l.cursor, .nil _, ht ▸ hn⟩
    case neg =>
      have ⟨_, he, _⟩ := (readsAll_of_ok hn ht).mp h
      exact nomatch he
  case cons.ok u us hi t =>
    by_cases ht : t = .finish
    case pos => exact nomatch (readsAll_of_finish (ht ▸ hn)).mp h
    case neg =>
      have ⟨_, he, hu⟩ := (readsAll_of_ok hn ht).mp h
      cases he
      have ⟨c, hr, hc⟩ := hi hu
      exact ⟨c, .cons (cursor_next (hn ▸ rfl)) ht hr, hc⟩

theorem readsAll_of_reads (h : l.cursor.Reads ts c) (hc : c.next.1 = .ok .finish) :
    l.ReadsAll ts := by
  induction ts generalizing l
  case nil =>
    cases Cursor.Reads.nil_iff.mp h
    exact (readsAll_of_finish hc).mpr rfl
  case cons t ts hi =>
    have ⟨c', hn, ht, h⟩ := Cursor.Reads.cons_iff.mp h
    have hl : l.next.2.cursor = c' := congrArg Prod.snd hn
    exact (readsAll_of_ok (congrArg Prod.fst hn) ht).mpr ⟨ts, rfl, hi (hl ▸ h)⟩

theorem readsAll_iff : l.ReadsAll ts ↔ ∃ c, l.cursor.Reads ts c ∧ c.next.1 = .ok .finish :=
  ⟨ReadsAll.reads, fun ⟨_, h, hc⟩ => readsAll_of_reads h hc⟩

end Lexer
end Sentential
