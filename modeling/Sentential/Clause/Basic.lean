import Sentential.Literal
import Sentential.VarSet

namespace Sentential

-- A set of literals, at least one of which is to hold.
structure Clause where
  positive : VarSet
  negative : VarSet
deriving DecidableEq, Repr, Inhabited

namespace Clause

instance : EmptyCollection Clause where
  emptyCollection := ⟨∅, ∅⟩

instance : Membership Literal Clause where
  mem c l := l.var ∈ if l.positive then c.positive else c.negative

instance (l : Literal) (c : Clause) : Decidable (l ∈ c) :=
  inferInstanceAs (Decidable (l.var ∈ if l.positive then c.positive else c.negative))

-- Clauses are compared by their positive variables, then by their negated ones.
instance : Ord Clause where
  compare c d := (compare c.positive d.positive).then (compare c.negative d.negative)

def insert (c : Clause) (l : Literal) : Clause :=
  if l.positive then { c with positive := c.positive.insert l.var }
  else { c with negative := c.negative.insert l.var }

def ofLiterals (ls : List Literal) : Clause :=
  ls.foldl insert ∅

-- The literals, the positive ones first, both kinds in name order.
def literals (c : Clause) : List Literal :=
  c.positive.toList.map Var.positive ++ c.negative.toList.map Var.negative

def vars (c : Clause) : VarSet :=
  c.positive.union c.negative

def size (c : Clause) : Nat :=
  c.positive.size + c.negative.size

def isEmpty (c : Clause) : Bool :=
  c.positive.isEmpty && c.negative.isEmpty

-- Whether some variable occurs both as it is and negated.
def isTautology (c : Clause) : Bool :=
  !c.positive.disjoint c.negative

theorem mem_def {l : Literal} {c : Clause} :
    l ∈ c ↔ l.var ∈ if l.positive then c.positive else c.negative :=
  Iff.rfl

@[simp]
theorem positive_mem {v : Var} {c : Clause} : v.positive ∈ c ↔ v ∈ c.positive :=
  Iff.rfl

@[simp]
theorem negative_mem {v : Var} {c : Clause} : v.negative ∈ c ↔ v ∈ c.negative :=
  Iff.rfl

@[simp]
theorem not_mem_empty (l : Literal) : l ∉ (∅ : Clause) := by
  obtain ⟨v, b⟩ := l
  cases b <;> exact VarSet.not_mem_empty v

@[simp]
theorem mem_insert {c : Clause} {k l : Literal} : k ∈ c.insert l ↔ k = l ∨ k ∈ c := by
  obtain ⟨v, b⟩ := k
  obtain ⟨w, b'⟩ := l
  cases b <;> cases b' <;> simp [insert, mem_def]

theorem mem_foldl_insert {ls : List Literal} {c : Clause} {k : Literal} :
    k ∈ ls.foldl insert c ↔ k ∈ c ∨ k ∈ ls := by
  induction ls generalizing c
  case nil => simp
  case cons l ls ih =>
    simp only [List.foldl_cons, ih, mem_insert, List.mem_cons]
    grind

@[simp]
theorem mem_ofLiterals {ls : List Literal} {k : Literal} : k ∈ ofLiterals ls ↔ k ∈ ls := by
  simp [ofLiterals, mem_foldl_insert]

@[simp]
theorem mem_literals {l : Literal} {c : Clause} : l ∈ c.literals ↔ l ∈ c := by
  obtain ⟨v, b⟩ := l
  cases b <;> simp [literals, mem_def, Var.positive, Var.negative, Var.literal]

-- A clause lists the first literal before the second one, if it has both.
def ListsBefore (l k : Literal) : Prop :=
  (l.positive ∧ ¬k.positive) ∨ (l.positive = k.positive ∧ l.var < k.var)

theorem literals_sorted (c : Clause) : c.literals.Pairwise ListsBefore := by
  refine List.pairwise_append.mpr ⟨?_, ?_, ?_⟩
  · exact List.pairwise_map.mpr (c.positive.sorted.imp fun h => .inr ⟨rfl, h⟩)
  · exact List.pairwise_map.mpr (c.negative.sorted.imp fun h => .inr ⟨rfl, h⟩)
  · intro l hl k hk
    obtain ⟨v, _, rfl⟩ := List.mem_map.mp hl
    obtain ⟨w, _, rfl⟩ := List.mem_map.mp hk
    exact .inl ⟨rfl, Bool.false_ne_true⟩

@[simp]
theorem mem_vars {v : Var} {c : Clause} : v ∈ c.vars ↔ v ∈ c.positive ∨ v ∈ c.negative :=
  VarSet.mem_union

theorem var_mem_vars {l : Literal} {c : Clause} (h : l ∈ c) : l.var ∈ c.vars := by
  obtain ⟨v, b⟩ := l
  cases b
  case false => exact mem_vars.mpr (.inr h)
  case true => exact mem_vars.mpr (.inl h)

theorem exists_literal_of_mem_vars {v : Var} {c : Clause} (h : v ∈ c.vars) :
    ∃ l ∈ c, l.var = v :=
  (mem_vars.mp h).elim (fun h => ⟨v.positive, h, rfl⟩) (fun h => ⟨v.negative, h, rfl⟩)

theorem ext_literal {c d : Clause} (h : ∀ l : Literal, l ∈ c ↔ l ∈ d) : c = d := by
  obtain ⟨p, n⟩ := c
  obtain ⟨p', n'⟩ := d
  have hp : p = p' := VarSet.ext fun v => h v.positive
  have hn : n = n' := VarSet.ext fun v => h v.negative
  rw [hp, hn]

@[simp]
theorem ofLiterals_literals (c : Clause) : ofLiterals c.literals = c :=
  ext_literal fun l => by simp

theorem isEmpty_iff {c : Clause} : c.isEmpty ↔ c = ∅ := by
  rw [isEmpty, Bool.and_eq_true, VarSet.isEmpty_iff, VarSet.isEmpty_iff]
  exact ⟨fun ⟨hp, hn⟩ => by cases c; subst hp hn; rfl, fun h => h ▸ ⟨rfl, rfl⟩⟩

end Clause

def clauseVars (cs : List Clause) : VarSet :=
  cs.foldr (fun c vs => c.vars.union vs) ∅

@[simp]
theorem mem_clauseVars {cs : List Clause} {v : Var} : v ∈ clauseVars cs ↔ ∃ c ∈ cs, v ∈ c.vars := by
  induction cs
  case nil => simp [clauseVars]
  case cons c cs ih => simp_all [clauseVars]

end Sentential
