import Sentential.Literal
import Sentential.VarSet

namespace Sentential

inductive Sentence where
  | truth
  | falsity
  | var (v : Var)
  | not (s : Sentence)
  | and (l r : Sentence)
  | or (l r : Sentence)
  | implies (l r : Sentence)
  | iff (l r : Sentence)
deriving DecidableEq, Ord, Repr, Inhabited

namespace Sentence

-- The sentence that says just what the literal says.
def ofLiteral (l : Literal) : Sentence :=
  if l.positive then var l.var else not (var l.var)

-- The sentences joined by `and`, nested to the right. No sentence stands for no sentences.
def conjunction? : List Sentence → Option Sentence
  | [] => none
  | s :: ss =>
    match conjunction? ss with
    | none => some s
    | some t => some (and s t)

-- The sentences joined by `and`, which for no sentences is the constant true sentence.
def conjunction (ss : List Sentence) : Sentence :=
  (conjunction? ss).getD truth

def vars : Sentence → VarSet
  | truth | falsity => ∅
  | var v => VarSet.insert ∅ v
  | not s => s.vars
  | and l r | or l r | implies l r | iff l r => l.vars.union r.vars

-- Whether the sentence is a constant or a variable.
def isAtom : Sentence → Bool
  | truth | falsity | var _ => true
  | _ => false

-- Whether the sentence is an atom or the negation of one.
def isLiteral : Sentence → Bool
  | not s => s.isAtom
  | s => s.isAtom

-- The literal that the sentence is, if it is a variable or a negated variable.
def literal? : Sentence → Option Literal
  | var v => some v.positive
  | not (var v) => some v.negative
  | _ => none

@[simp]
theorem literal?_ofLiteral (l : Literal) : (ofLiteral l).literal? = some l := by
  obtain ⟨v, b⟩ := l
  cases b <;> rfl

end Sentence

-- A connective that joins two sentences.
inductive Connective where
  | and
  | or
  | implies
  | iff
deriving DecidableEq, Repr

namespace Connective

-- The sentence that the connective makes of two.
def join : Connective → Sentence → Sentence → Sentence
  | and => .and
  | or => .or
  | implies => .implies
  | iff => .iff

end Connective
end Sentential
