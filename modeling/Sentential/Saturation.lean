import Sentential.Clause.Scope
import Sentential.Event
import Sentential.NormalForm.Basic

namespace Sentential.Saturation

-- Two clauses whose resolvent is empty.
structure Refutation where
  left : Clause
  right : Clause
deriving DecidableEq, Repr

-- Takes up a clause, unless it is known or has been taken up before.
def takeUp (known fresh : List Clause) (c : Clause) : List Clause :=
  if c ∈ known ∨ c ∈ fresh then fresh else fresh ++ [c]

-- Resolves each of the clauses with `right`, and takes up what is new.
def resolveWith (known : List Clause) (right : Clause) :
    List Clause → List Clause → Except Refutation (List Clause)
  | [], fresh => .ok fresh
  | left :: lefts, fresh =>
    match left.resolve right with
    | .clause r =>
      if r.isEmpty then .error ⟨left, right⟩
      else resolveWith known right lefts (takeUp known fresh r)
    | _ => resolveWith known right lefts fresh

-- Resolves each pending clause with the settled ones and with the pending ones before it.
def sweep (known settled : List Clause) :
    List Clause → List Clause → Except Refutation (List Clause)
  | [], fresh => .ok fresh
  | right :: pending, fresh =>
    match resolveWith known right settled fresh with
    | .error e => .error e
    | .ok fresh => sweep known (settled ++ [right]) pending fresh

-- The clauses are new and over the variables of `scope`.
def AllNew (known : List Clause) (scope : VarSet) (fresh : List Clause) : Prop :=
  ∀ c ∈ fresh, c ∉ known ∧ c.Within scope

namespace AllNew

variable {known : List Clause} {scope : VarSet}

theorem takeUp {fresh : List Clause} {c : Clause} (h : AllNew known scope fresh)
    (hc : c.Within scope) : AllNew known scope (takeUp known fresh c) := by
  unfold Saturation.takeUp
  split
  case isTrue => exact h
  case isFalse hn =>
    intro d hd
    obtain hd | rfl := (List.mem_append.mp hd).imp_right List.mem_singleton.mp
    case inl => exact h d hd
    case inr => exact ⟨fun hk => hn (.inl hk), hc⟩

theorem resolveWith {right : Clause} {lefts fresh fresh' : List Clause}
    (h : resolveWith known right lefts fresh = .ok fresh') (hf : AllNew known scope fresh)
    (hr : right.Within scope) (hl : ∀ c ∈ lefts, c.Within scope) :
    AllNew known scope fresh' := by
  induction lefts generalizing fresh
  case nil => exact Except.ok.inj h ▸ hf
  case cons left lefts ih =>
    have hl' := List.forall_mem_cons.mp hl
    rw [Saturation.resolveWith] at h
    split at h
    case h_1 r hres =>
      split at h
      case isTrue => exact nomatch h
      case isFalse => exact ih h (hf.takeUp (.of_resolve hres hl'.1 hr)) hl'.2
    case h_2 => exact ih h hf hl'.2

theorem sweep {settled pending fresh fresh' : List Clause}
    (h : sweep known settled pending fresh = .ok fresh') (hf : AllNew known scope fresh)
    (hw : ∀ c ∈ settled ++ pending, c.Within scope) : AllNew known scope fresh' := by
  induction pending generalizing settled fresh
  case nil => exact Except.ok.inj h ▸ hf
  case cons right pending ih =>
    rw [Saturation.sweep] at h
    split at h
    case h_1 => exact nomatch h
    case h_2 fresh₁ h₁ =>
      have hf₁ := resolveWith h₁ hf (hw right (by simp)) fun c hc => hw c (by simp [hc])
      exact ih h hf₁ (by simpa using hw)

end AllNew

-- A stage of saturation. The settled clauses have been resolved with each other, the pending ones are
-- new. The scope, which bounds what can be derived, never changes.
structure State (scope : VarSet) where
  settled : List Clause
  pending : List Clause
  within : ∀ c ∈ settled ++ pending, c.Within scope

namespace State

variable {scope : VarSet}

-- The stage before the first round.
def start (cs : List Clause) : State (clauseVars cs) where
  settled := []
  pending := cs
  within _ h := Clause.within_clauseVars h

def clauses (s : State scope) : List Clause :=
  s.settled ++ s.pending

-- The number of clauses in scope that are not known.
def unknown (s : State scope) : Nat :=
  (Clause.allWithin scope).countP (· ∉ s.clauses)

-- The new clauses of a round.
def sweep (s : State scope) : Except Refutation (List Clause) :=
  Saturation.sweep s.clauses s.settled s.pending []

theorem allNew {s : State scope} {fresh : List Clause} (h : s.sweep = .ok fresh) :
    AllNew s.clauses scope fresh :=
  AllNew.sweep h (fun _ hc => nomatch hc) s.within

-- The stage after a round.
def advance (s : State scope) (fresh : List Clause) (h : s.sweep = .ok fresh) : State scope where
  settled := s.clauses
  pending := fresh
  within c hc := (List.mem_append.mp hc).elim (s.within c) (fun hc => (allNew h c hc).2)

theorem countP_lt_of_mem {α : Type} {p q : α → Bool} {x : α} {xs : List α}
    (hpq : ∀ y, p y → q y) (hx : x ∈ xs) (hq : q x) (hp : ¬p x) : xs.countP p < xs.countP q := by
  induction xs
  case nil => exact nomatch hx
  case cons y ys ih =>
    obtain rfl | hx := List.mem_cons.mp hx
    case inl =>
      rw [List.countP_cons_of_pos hq, List.countP_cons_of_neg hp, Nat.lt_succ_iff]
      exact List.countP_mono_left fun z _ => hpq z
    case inr =>
      have := ih hx
      have := hpq y
      rw [List.countP_cons, List.countP_cons]
      grind

-- A round with new clauses leaves fewer to be found.
theorem unknown_advance {s : State scope} {fresh : List Clause} (h : s.sweep = .ok fresh)
    (hne : fresh ≠ []) : (s.advance fresh h).unknown < s.unknown := by
  have ⟨c, hc⟩ := List.exists_mem_of_ne_nil fresh hne
  have ⟨hn, hw⟩ := allNew h c hc
  apply countP_lt_of_mem (x := c)
  case hpq =>
    intro d hd
    simp only [decide_eq_true_eq] at hd ⊢
    exact fun h' => hd (List.mem_append_left _ h')
  case hx => exact Clause.mem_allWithin hw
  case hq => exact decide_eq_true hn
  case hp => simpa [clauses, advance] using fun _ _ => hc

end State

-- How saturation ends: with the empty clause, or with clauses that yield nothing new.
inductive Outcome where
  | refuted
  | saturated (clauses : List Clause)
deriving DecidableEq, Repr

namespace Outcome

def isRefuted : Outcome → Bool
  | refuted => true
  | saturated _ => false

end Outcome

-- Goes on round by round; `round` is the number of the next one.
def run {scope : VarSet} (round : Nat) (s : State scope) : Traced Outcome := do
  Traced.emit (.resolutionRound round s.clauses.length s.pending.length)
  match h : s.sweep with
  | .error e =>
    Traced.emit (.emptyClauseDerived e.left e.right)
    return .refuted
  | .ok fresh =>
    if hne : fresh = [] then
      Traced.emit (.saturated s.clauses.length)
      return .saturated s.clauses
    else
      have := State.unknown_advance h hne
      run (round + 1) (s.advance fresh h)
termination_by s.unknown

-- Saturates the clauses, unless the empty clause is already among them.
def saturate (cs : List Clause) : Traced Outcome :=
  if cs.any Clause.isEmpty then return .refuted
  else run 1 (.start cs)

-- Whether no assignment satisfies all of the clauses.
def unsatisfiable (cs : List Clause) : Traced Bool :=
  (saturate cs).map Outcome.isRefuted

-- Whether the premise and the negated query contradict each other.
def entails (premise query : Sentence) : Traced Bool :=
  unsatisfiable (Sentence.and premise query.not).clauses

end Sentential.Saturation
