namespace Sentential

-- A propositional variable. Any text is a name, also one that no sentence can spell.
structure Var where
  name : String
deriving DecidableEq, Repr, Inhabited

namespace Var

-- Variables are in the order of their names, code point by code point.
instance : LT Var where
  lt v w := v.name < w.name

instance : DecidableLT Var :=
  fun v w => inferInstanceAs (Decidable (v.name < w.name))

instance : Ord Var where
  compare v w := compare v.name w.name

instance : ToString Var where
  toString := Var.name

theorem ext_name {v w : Var} (h : v.name = w.name) : v = w := by
  cases v; cases w; simp_all

theorem lt_irrefl (v : Var) : ¬v < v :=
  String.lt_irrefl v.name

theorem lt_trans {u v w : Var} (h₁ : u < v) (h₂ : v < w) : u < w :=
  String.lt_trans h₁ h₂

theorem lt_asymm {v w : Var} (h : v < w) : ¬w < v :=
  fun h' => lt_irrefl v (lt_trans h h')

theorem ne_of_lt {v w : Var} (h : v < w) : v ≠ w :=
  fun e => lt_irrefl w (e ▸ h)

-- Of two different variables, one comes first.
theorem lt_or_gt_of_ne {v w : Var} (h : v ≠ w) : v < w ∨ w < v := by
  by_cases h₁ : v < w
  case pos => exact .inl h₁
  case neg =>
    by_cases h₂ : w < v
    case pos => exact .inr h₂
    case neg => exact absurd (ext_name (String.le_antisymm h₂ h₁)) h

end Var
end Sentential
