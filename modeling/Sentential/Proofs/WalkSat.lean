import Mathlib.Data.List.MinMax
import Sentential.Proofs.Draw
import Sentential.Proofs.NormalForm
import Sentential.Proofs.Probability
import Sentential.Random.Script
import Sentential.WalkSat

namespace Sentential

-- The model has values for just these variables.
def Model.Assigns (m : Model) (vs : VarSet) : Prop :=
  ∀ v, m.value v ≠ none ↔ v ∈ vs

theorem Model.Assigns.flip {m : Model} {vs : VarSet} {v : Var} (h : m.Assigns vs) (hv : v ∈ vs) :
    (m.flip v).Assigns vs := by
  intro w
  rw [Model.flip, value_extend]
  split
  case isTrue he => simp [he, hv]
  case isFalse => exact h w

namespace WalkSat

open Sentential.Random Sentential.Random.Draw

variable {σ : Type} {g : Generator σ} {p : Float} {cs : List Clause} {m : Model}

theorem firstBest_eq_argmax {α : Type} (score : α → Nat) (xs : List α) :
    firstBest score xs = xs.argmax score := by
  cases xs
  case nil => rfl
  case cons x xs =>
    refine (List.foldl_hom some fun best y => ?_).symm
    exact (apply_ite some ..).symm

theorem bestFlip_mem {ls : List Literal} {l : Literal} (h : bestFlip cs m ls = some l) : l ∈ ls := by
  rw [bestFlip, firstBest_eq_argmax] at h
  exact List.argmax_mem h

theorem bestFlip_eq_none {ls : List Literal} : bestFlip cs m ls = none ↔ ls = [] := by
  rw [bestFlip, firstBest_eq_argmax, List.argmax_eq_none]

theorem unsatisfied_eq_nil : unsatisfied cs m = [] ↔ ∀ c ∈ cs, m.clauseValue c = some true := by
  simp [unsatisfied]

theorem satisfiedCount_eq_length :
    satisfiedCount cs m = cs.length ↔ ∀ c ∈ cs, m.clauseValue c = some true := by
  simp [satisfiedCount, List.countP_eq_length]

theorem ensures_randomModel (g : Generator σ) (vs : List Var) :
    Ensures (randomModel g vs) fun m => ∀ v, m.value v ≠ none ↔ v ∈ vs := by
  induction vs
  case nil => exact .pure (by simp)
  case cons w vs hi =>
    refine .bind (.trivial _) fun b _ => .bind hi fun m hm => .pure fun v => ?_
    rw [Model.value_extend]
    split
    case isTrue he => simp [he]
    case isFalse he => simp [he, hm]

-- The pick is an unsatisfied clause with a literal of it, which is the best one if it is not taken at
-- random. There is no literal only if the clause is empty.
structure Pick.IsFor (k : Pick) (cs : List Clause) (m : Model) : Prop where
  clause : k.clause ∈ unsatisfied cs m
  literal : ∀ l, k.literal = some l → l ∈ k.clause
  empty : k.literal = none → k.clause.literals = []
  best : k.atRandom = false → k.literal = bestFlip cs m k.clause.literals

theorem ensures_pick (g : Generator σ) (p : Float) (cs : List Clause) (m : Model) :
    Ensures (pick g p cs m) fun o =>
      (o = none ∧ unsatisfied cs m = []) ∨ ∃ k : Pick, o = some k ∧ k.IsFor cs m := by
  refine .bind (g.ensures_choose? _) fun o ho => ?_
  obtain ⟨rfl, hn⟩ | ⟨c, hc, rfl⟩ := ho
  case inl => exact .pure (.inl ⟨rfl, hn⟩)
  case inr =>
    refine .bind (.trivial _) fun atRandom _ => ?_
    cases atRandom
    case true =>
      refine .bind (g.ensures_choose? c.literals) fun o ho => .pure (.inr ⟨_, rfl, ?_⟩)
      obtain ⟨rfl, he⟩ | ⟨l, hl, rfl⟩ := ho
      case inl => exact ⟨hc, nofun, fun _ => he, nofun⟩
      case inr => exact ⟨hc, fun k hk => Option.some.inj hk ▸ Clause.mem_literals.mp hl, nofun, nofun⟩
    case false =>
      refine .bind (.pure rfl) fun o ho => .pure (.inr ⟨_, rfl, hc, fun l hl => ?_, fun he => ?_, ?_⟩)
      · exact Clause.mem_literals.mp (bestFlip_mem (ho ▸ hl))
      · exact bestFlip_eq_none.mp (ho ▸ he)
      · exact fun _ => ho.symm

namespace Pick.IsFor

variable {k : Pick}

theorem mem_clauses (h : k.IsFor cs m) : k.clause ∈ cs :=
  List.mem_of_mem_filter h.clause

theorem assigns_apply (h : k.IsFor cs m) (hm : m.Assigns (clauseVars cs)) :
    (k.apply m).Assigns (clauseVars cs) := by
  rw [apply]
  split
  case h_1 => exact hm
  case h_2 l hl =>
    have hv : l.var ∈ k.clause.vars := Clause.var_mem_vars (h.literal l hl)
    exact hm.flip (mem_clauseVars.mpr ⟨k.clause, h.mem_clauses, hv⟩)

end Pick.IsFor

-- The model is a full one of the clauses, and makes all of them true.
structure Solves (cs : List Clause) (m : Model) : Prop where
  clauseValue : ∀ c ∈ cs, m.clauseValue c = some true
  assigns : m.Assigns (clauseVars cs)

-- The models that the walk passes through are full ones of the clauses, by `Pick.IsFor.assigns_apply`.
theorem ensures_walk (hm : m.Assigns (clauseVars cs)) (left done : Nat) :
    Ensures (walk g p cs left done m) fun t => ∀ m', t.value = some m' → Solves cs m' := by
  induction left generalizing done m
  case zero =>
    rw [walk]
    split
    case isTrue hc =>
      refine .pure fun m' he => ?_
      cases Option.some.inj he
      exact ⟨satisfiedCount_eq_length.mp hc, hm⟩
    case isFalse => exact .pure fun m' he => nomatch he
  case succ left hi =>
    refine .bind (ensures_pick g p cs m) fun o ho => ?_
    obtain ⟨rfl, hn⟩ | ⟨k, rfl, hk⟩ := ho
    case inl =>
      refine .pure fun m' he => ?_
      cases Option.some.inj he
      exact ⟨unsatisfied_eq_nil.mp hn, hm⟩
    case inr => exact hi (hk.assigns_apply hm) (done + 1)

variable {s : Sentence} {maxFlips : Nat}

theorem Solves.eval_eq_true (h : Solves s.clauses m) : m.eval s = some true :=
  Model.eval_eq_true_iff_clauses.mpr h.clauseValue

theorem Solves.exists_holds (h : Solves s.clauses m) : ∃ ν : Valuation, ν.holds s :=
  ⟨.complete m, (Valuation.complete_extends m).holds_eq h.eval_eq_true⟩

theorem run_of_empty_mem (h : ∅ ∈ s.clauses) :
    run g s maxFlips p = pure ⟨none, [.emptyClauseGiven]⟩ := by
  have he : s.clauses.any Clause.isEmpty := List.any_eq_true.mpr ⟨∅, h, rfl⟩
  rw [run, if_pos he]

theorem ensures_run (g : Generator σ) (s : Sentence) (maxFlips : Nat) (p : Float) :
    Ensures (run g s maxFlips p) fun t => ∀ m, t.value = some m → Solves s.clauses m := by
  rw [run]
  split
  case isTrue => exact .pure fun m hm => nomatch hm
  case isFalse =>
    refine .bind (ensures_randomModel g _) fun m hm => ?_
    exact ensures_walk hm maxFlips 0

theorem search_of_isProbability (h : isProbability p) :
    search g s maxFlips p = (do return .ok (← run g s maxFlips p)) := by
  simp only [search, checkProbability, h, if_true]

theorem search_of_not_isProbability (h : ¬isProbability p) :
    search g s maxFlips p = pure (.error (.notProbability p)) := by
  simp only [search, checkProbability, h, Bool.false_eq_true, if_false]

theorem ensures_search (h : isProbability p) :
    Ensures (search g s maxFlips p) fun r =>
      ∃ t, r = .ok t ∧ ∀ m, t.value = some m → Solves s.clauses m := by
  rw [search_of_isProbability h]
  exact .bind (ensures_run g s maxFlips p) fun t ht => .pure ⟨t, rfl, ht⟩

theorem search_eq_error_iff {start : σ} :
    (search g s maxFlips p).run start = some (.error (.notProbability p), start) ↔
      ¬isProbability p := by
  constructor
  case mp =>
    intro he hp
    have ⟨_, ht, _⟩ := ensures_search hp _ _ _ he
    exact nomatch ht
  case mpr =>
    intro hp
    rw [search_of_not_isProbability hp]
    rfl

theorem search_outcomes (g : Generator σ) (s : Sentence) (maxFlips : Nat) (p : Float) (start : σ) :
    let result := (search g s maxFlips p).run start
    let inRange := ∃ q : ℚ, (Decimal.Binary.ofFloat p).value = some q ∧ 0 ≤ q ∧ q ≤ 1
    (result = some (.error (.notProbability p), start) ↔ ¬inRange) ∧
      (inRange →
        (∀ r stop, result = some (r, stop) → ∃ t, r = .ok t ∧
          (∀ m, t.value = some m →
            m.eval s = some true ∧ ∀ v, m.value v ≠ none ↔ v ∈ clauseVars s.clauses) ∧
          ((¬∃ ν : Valuation, ν.holds s) → t.value = none)) ∧
        (∅ ∈ s.clauses → ∃ t, result = some (.ok t, start) ∧ t.value = none)) := by
  intro result inRange
  have hp : isProbability p ↔ inRange := isProbability_iff p
  constructor
  case left => exact search_eq_error_iff.trans (not_congr hp)
  case right =>
    intro hr
    have hp := hp.mpr hr
    constructor
    case left =>
      intro r stop he
      have ⟨t, ht, hs⟩ := ensures_search hp start r stop he
      refine ⟨t, ht, fun m hm => ⟨(hs m hm).eval_eq_true, (hs m hm).assigns⟩, fun hu => ?_⟩
      exact Option.eq_none_iff_forall_ne_some.mpr fun m hm => hu (hs m hm).exists_holds
    case right =>
      intro hc
      refine ⟨⟨none, [.emptyClauseGiven]⟩, ?_, rfl⟩
      simp only [result, search_of_isProbability hp, run_of_empty_mem hc]
      rfl

-- From two false variables, the walk turns over one and then the other, with its last flip.
theorem search_outcomes_half :
    let a := Sentence.var ⟨"A"⟩
    let b := Sentence.var ⟨"B"⟩
    let s := Sentence.and a (.implies a b)
    let m : Model := { entries := [(⟨"A"⟩, true), (⟨"B"⟩, true)], sorted := by decide }
    ∃ t stop, (search Script.generator s 2 0.5).run (.ofWords [0]) = some (.ok t, stop) ∧
      t.value = some m ∧ m.eval s = some true ∧ ∀ v, m.value v ≠ none ↔ v ∈ clauseVars s.clauses := by
  intro a b s m
  have hr : ((search Script.generator s 2 0.5).run (.ofWords [0])).map (·.1.toOption.map (·.value)) =
      some (some (some m)) := by
    decide +kernel
  have ⟨(r, stop), he, hm⟩ := Option.map_eq_some_iff.mp hr
  have ⟨t, ht, hf, _⟩ := ((search_outcomes Script.generator s 2 0.5 (.ofWords [0])).right
    ((isProbability_iff 0.5).mp (by decide))).left r stop he
  subst ht
  have hm : t.value = some m := Option.some.inj hm
  exact ⟨t, stop, he, hm, hf m hm⟩

end WalkSat
end Sentential
