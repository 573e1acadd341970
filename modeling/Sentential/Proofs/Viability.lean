import Sentential.Proofs.Grammar

namespace Sentential.Grammar

-- Some sentence begins with the tokens.
def Viable (ts : List Token) : Prop :=
  ∃ us s, IsSentence us s ∧ ts <+: us

-- Where the reading of a sentence has come to, with so many parentheses open.
inductive Place where
  -- A sentence is to begin.
  | before (depth : Nat)
  -- An operand has ended.
  | after (depth : Nat)
  -- The text has ended.
  | done
deriving DecidableEq, Repr

namespace Place

-- Where a token leads, if a sentence can go on with it. Its end counts as a token.
def step : Place → Token → Option Place
  | before n, .not => some (before n)
  | before n, .leftParen => some (before (n + 1))
  | before n, .truth | before n, .falsity | before n, .name _ => some (after n)
  | after n, .and | after n, .or | after n, .implies | after n, .iff => some (before n)
  | after (n + 1), .rightParen => some (after n)
  | after 0, .finish => some done
  | _, _ => none

def run (p : Place) (ts : List Token) : Option Place :=
  ts.foldlM step p

variable {p : Place} {t : Token} {ts us : List Token} {s : Sentence}

theorem run_append : p.run (ts ++ us) = (p.run ts).bind (·.run us) :=
  List.foldlM_append

theorem run_cons : p.run (t :: ts) = (p.step t).bind (·.run ts) :=
  List.foldlM_cons

theorem step_after_connective (n : Nat) (k : Connective) : (after n).step k.token = some (before n) := by
  cases k <;> rfl

mutual

theorem run_of_isSentence {ts : List Token} {s : Sentence} (n : Nat) :
    IsSentence ts s → (before n).run ts = some (after n)
  | .not h => by
    rw [run_cons]
    exact run_of_isSentence n h
  | .operand h => run_of_isOperand n h
  | .joined h₁ hj h₂ => by
    obtain ⟨k, rfl, rfl⟩ := joins_iff.mp hj
    rw [run_append, run_of_isOperand n h₁, Option.bind_some, run_cons, step_after_connective]
    exact run_of_isSentence n h₂

theorem run_of_isOperand {ts : List Token} {s : Sentence} (n : Nat) :
    IsOperand ts s → (before n).run ts = some (after n)
  | .truth | .falsity | .name _ => rfl
  | .parens h => by
    rw [List.cons_append, run_cons, step, Option.bind_some, run_append, run_of_isSentence (n + 1) h]
    rfl

end

theorem not_isPrefix_of_step (hr : (before 0).run ts = some p) (ht : p.step t = none)
    (hs : IsSentence us s) : ¬ts ++ [t] <+: us ++ [.finish] := by
  intro ⟨vs, he⟩
  have hn : (before 0).run (us ++ [.finish]) = none := by
    rw [← he, run_append, run_append, hr, Option.bind_some, run_cons, ht]
    rfl
  rw [run_append, run_of_isSentence 0 hs] at hn
  exact nomatch hn

end Place

namespace Viable

variable {ts us : List Token} {s : Sentence}

theorem of_isSentence (h : IsSentence ts s) : Viable ts :=
  ⟨ts, s, h, List.prefix_rfl⟩

theorem nil : Viable [] :=
  ⟨[.truth], .truth, .operand .truth, List.nil_prefix⟩

theorem not (h : Viable ts) : Viable (.not :: ts) :=
  have ⟨us, s, hs, hp⟩ := h
  ⟨.not :: us, .not s, .not hs, List.cons_prefix_cons.mpr ⟨rfl, hp⟩⟩

theorem leftParen (h : Viable ts) : Viable (.leftParen :: ts) :=
  have ⟨us, s, hs, hp⟩ := h
  ⟨.leftParen :: us ++ [.rightParen], s, .operand (.parens hs),
    List.cons_prefix_cons.mpr ⟨rfl, hp.trans (List.prefix_append us _)⟩⟩

theorem joined (k : Connective) (ho : IsOperand us s) (h : Viable ts) :
    Viable (us ++ k.token :: ts) :=
  have ⟨vs, r, hs, hp⟩ := h
  ⟨us ++ k.token :: vs, k.join s r, .join k ho hs,
    (List.prefix_append_right_inj us).mpr (List.cons_prefix_cons.mpr ⟨rfl, hp⟩)⟩

end Viable
end Sentential.Grammar
