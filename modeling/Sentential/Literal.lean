import Sentential.Var

namespace Sentential

-- A variable together with the truth value that the literal asks of it.
structure Literal where
  var : Var
  positive : Bool
deriving DecidableEq, Repr, Inhabited

namespace Literal

-- The literal that holds exactly when `l` does not.
def negate (l : Literal) : Literal :=
  { l with positive := !l.positive }

-- `l` itself, or its negation if `b` holds.
def negateIf (l : Literal) (b : Bool) : Literal :=
  { l with positive := l.positive ^^ b }

-- Of the two literals of a variable, the positive one comes first.
instance : Ord Literal where
  compare l m := (compare l.var m.var).then (compare (!l.positive) (!m.positive))

instance : ToString Literal where
  toString l := if l.positive then l.var.name else "NOT " ++ l.var.name

@[simp]
theorem negate_negate (l : Literal) : l.negate.negate = l := by
  simp [negate]

@[simp]
theorem negate_var (l : Literal) : l.negate.var = l.var :=
  rfl

@[simp]
theorem negate_positive (l : Literal) : l.negate.positive = !l.positive :=
  rfl

-- A variable has no other literals than these two.
theorem eq_or_eq_negate {k l : Literal} (h : k.var = l.var) : k = l ∨ k = l.negate := by
  obtain ⟨v, b⟩ := k
  obtain ⟨w, b'⟩ := l
  cases h
  cases b <;> cases b' <;> simp [negate]

end Literal

namespace Var

-- The literal asking that the variable has the given value.
def literal (v : Var) (value : Bool) : Literal :=
  ⟨v, value⟩

def positive (v : Var) : Literal :=
  v.literal true

def negative (v : Var) : Literal :=
  v.literal false

end Var
end Sentential
