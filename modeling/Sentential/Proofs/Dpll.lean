import Mathlib.Logic.Function.Basic
import Sentential.Dpll
import Sentential.Proofs.NormalForm

namespace Sentential.Dpll

-- Some valuation with the values of the model satisfies all clauses.
def Solvable (cs : List Clause) (m : Model) : Prop :=
  ∃ ν : Valuation, ν.Extends m ∧ ∀ c ∈ cs, ν.Satisfies c

variable {cs opened : List Clause} {m : Model} {ν : Valuation} {c : Clause} {k l : Literal} {v : Var}

theorem openClauses?_eq_none :
    openClauses? cs m = none ↔ ∃ c ∈ cs, m.clauseValue c = some false := by
  simp [openClauses?]

theorem mem_openClauses? (h : openClauses? cs m = some opened) :
    c ∈ opened ↔ c ∈ cs ∧ m.clauseValue c = none := by
  unfold openClauses? at h
  split at h
  case isTrue => exact nomatch h
  case isFalse => simp [← Option.some.inj h]

-- While no clause is false, all but the open ones are true.
theorem clauseValue_of_not_mem_openClauses? (h : openClauses? cs m = some opened) (hc : c ∈ cs)
    (hn : c ∉ opened) : m.clauseValue c = some true := by
  cases hv : m.clauseValue c
  case none => exact absurd ((mem_openClauses? h).mpr ⟨hc, hv⟩) hn
  case some b =>
    cases b
    case true => rfl
    case false =>
      have := openClauses?_eq_none.mpr ⟨c, hc, hv⟩
      simp [h] at this

theorem onlyPolarity?_eq_some : onlyPolarity? opened v = some l ↔
    l.var = v ∧ (∃ c ∈ opened, l ∈ c) ∧ ∀ c ∈ opened, l.negate ∉ c := by
  constructor
  case mp =>
    intro h
    refine ⟨onlyPolarity?_var h, ?_⟩
    unfold onlyPolarity? at h
    split at h
    case h_1 hp hn =>
      cases h
      have hn : ∀ c ∈ opened, v ∉ c.negative := by simpa using hn
      exact ⟨by simpa using hp, hn⟩
    case h_2 hp hn =>
      cases h
      have hp : ∀ c ∈ opened, v ∉ c.positive := by simpa using hp
      exact ⟨by simpa using hn, hp⟩
    case h_3 => cases h
  case mpr =>
    rintro ⟨rfl, ho, hn⟩
    obtain ⟨w, b⟩ := l
    cases b
    case false =>
      replace ho : ∃ c ∈ opened, w ∈ c.negative := ho
      replace hn : ∀ c ∈ opened, w ∉ c.positive := hn
      have hp : opened.any (w ∈ ·.positive) = false := by simpa using hn
      have hn : opened.any (w ∈ ·.negative) = true := by simpa using ho
      simp only [onlyPolarity?, hp, hn]
      rfl
    case true =>
      replace ho : ∃ c ∈ opened, w ∈ c.positive := ho
      replace hn : ∀ c ∈ opened, w ∉ c.negative := hn
      have hp : opened.any (w ∈ ·.positive) = true := by simpa using ho
      have hn : opened.any (w ∈ ·.negative) = false := by simpa using hn
      simp only [onlyPolarity?, hp, hn]
      rfl

theorem eq_of_pureLiteral? (h : pureLiteral? opened m = some l) (hc : c ∈ opened) (hk : k ∈ c)
    (hv : k.var = l.var) : k = l := by
  have ⟨w, _, hl⟩ := List.exists_of_findSome?_eq_some h
  have ⟨_, _, hn⟩ := onlyPolarity?_eq_some.mp hl
  exact (Literal.eq_or_eq_negate hv).resolve_right fun he => hn c hc (he ▸ hk)

theorem extends_update (hf : m.value v = none) (he : ν.Extends m) (b : Bool) :
    Valuation.Extends (Function.update ν v b) m := by
  intro w x hw
  have hne : w ≠ v := fun e => by simp [← e, hw] at hf
  rw [Function.update_of_ne hne]
  exact he w x hw

-- Turning the pure literal true costs no clause the literal that made it true.
theorem satisfies_update_pure (ho : openClauses? cs m = some opened)
    (hl : pureLiteral? opened m = some l) (he : ν.Extends m) (hc : c ∈ cs) (hs : ν.Satisfies c) :
    Valuation.Satisfies (Function.update ν l.var l.positive) c := by
  have hf := (mem_freeVars.mp (pureLiteral?_free hl)).right
  by_cases hm : c ∈ opened
  case neg =>
    -- The clause is true under the model already, which the updated valuation still extends.
    have hv := clauseValue_of_not_mem_openClauses? ho hc hm
    exact (extends_update hf he l.positive).satisfies hv
  case pos =>
    have ⟨k, hk, hkv⟩ := hs
    refine ⟨k, hk, ?_⟩
    by_cases hv : k.var = l.var
    case pos => rw [eq_of_pureLiteral? hl hm hk hv, Function.update_self]
    case neg => rw [Function.update_of_ne hv, hkv]

theorem eq_of_lastLiteral? (h : lastLiteral? m c = some l) (hk : k ∈ c)
    (hv : m.value k.var = none) : k = l := by
  have hm : k ∈ c.literals.filter (m.literalValue · = none) := by
    simp [hk, Model.literalValue_eq_none, hv]
  unfold lastLiteral? at h
  split at h
  case h_1 l' hl =>
    rw [hl, List.mem_singleton] at hm
    exact hm.trans (Option.some.inj h)
  case h_2 => exact nomatch h

theorem holds_of_unitLiteral? (ho : openClauses? cs m = some opened)
    (hl : unitLiteral? opened m = some l) (he : ν.Extends m) (hs : ∀ c ∈ cs, ν.Satisfies c) :
    ν l.var = l.positive := by
  have ⟨c, hm, hl⟩ := List.exists_of_findSome?_eq_some hl
  have ⟨hc, hn⟩ := (mem_openClauses? ho).mp hm
  have ⟨k, hk, hkv⟩ := hs c hc
  -- No literal of an open clause is true under the model, so `k` has no value there.
  have hkn : m.value k.var = none := by
    cases hb : m.value k.var
    case none => rfl
    case some b =>
      have hb' : k.positive = b := hkv.symm.trans (he k.var b hb)
      exact absurd (hb' ▸ hb) ((Model.clauseValue_eq_none.mp hn).left k hk)
  exact eq_of_lastLiteral? hl hk hkn ▸ hkv

-- Among the solutions there is one in which the pure literal is true.
theorem Solvable.exists_pure (hs : Solvable cs m) (ho : openClauses? cs m = some opened)
    (hl : pureLiteral? opened m = some l) :
    ∃ ν : Valuation, ν.Extends m ∧ ν l.var = l.positive ∧ ∀ c ∈ cs, ν.Satisfies c := by
  have ⟨ν, he, hs⟩ := hs
  have hf := (mem_freeVars.mp (pureLiteral?_free hl)).right
  refine ⟨Function.update ν l.var l.positive, extends_update hf he _, Function.update_self .., ?_⟩
  exact fun c hc => satisfies_update_pure ho hl he hc (hs c hc)

theorem Solvable.forced (hs : Solvable cs m) (ho : openClauses? cs m = some opened)
    (hl : forced? opened m = some l) : Solvable cs (m.assign l) := by
  have hf := (mem_freeVars.mp (forced?_free ho hl)).right
  unfold forced? at hl
  cases hp : pureLiteral? opened m
  case some k =>
    have hk : k = l := by simpa [hp] using hl
    rw [hk] at hp
    have ⟨ν, he, hv, hs⟩ := hs.exists_pure ho hp
    exact ⟨ν, (Valuation.extends_extend hf).mpr ⟨hv, he⟩, hs⟩
  case none =>
    have ⟨ν, he, hs⟩ := hs
    have hu : unitLiteral? opened m = some l := by simpa [hp] using hl
    have hv := holds_of_unitLiteral? ho hu he hs
    exact ⟨ν, (Valuation.extends_extend hf).mpr ⟨hv, he⟩, hs⟩

theorem Solvable.branch (hs : Solvable cs m) (hf : m.value v = none) :
    Solvable cs (m.extend v true) ∨ Solvable cs (m.extend v false) := by
  have ⟨ν, he, hs⟩ := hs
  cases hv : ν v
  case true => exact .inl ⟨ν, (Valuation.extends_extend hf).mpr ⟨hv, he⟩, hs⟩
  case false => exact .inr ⟨ν, (Valuation.extends_extend hf).mpr ⟨hv, he⟩, hs⟩

theorem freeVars_ne_nil (ho : openClauses? cs m = some opened) (hne : opened ≠ []) :
    freeVars cs m ≠ [] := by
  have ⟨c, hm⟩ := List.exists_mem_of_ne_nil opened hne
  have ⟨hc, hn⟩ := (mem_openClauses? ho).mp hm
  have ⟨l, hl, hv⟩ := (Model.clauseValue_eq_none.mp hn).right
  have : l.var ∈ freeVars cs m :=
    mem_freeVars.mpr ⟨mem_clauseVars.mpr ⟨c, hc, Clause.var_mem_vars hl⟩, hv⟩
  exact List.ne_nil_of_mem this

-- All clauses are true, and only variables of theirs have been given values.
structure Solves (cs : List Clause) (m m' : Model) : Prop where
  clauseValue : ∀ c ∈ cs, m'.clauseValue c = some true
  vars : ∀ v, m'.value v ≠ none → m.value v ≠ none ∨ v ∈ clauseVars cs

theorem Solves.of_extend {m' : Model} {b : Bool} (h : Solves cs (m.extend v b) m')
    (hv : v ∈ clauseVars cs) : Solves cs m m' where
  clauseValue := h.clauseValue
  vars w hw := by
    by_cases he : w = v
    case pos => exact .inr (he ▸ hv)
    case neg => simpa [he] using h.vars w hw

-- What a search from the model is to give.
def Found (cs : List Clause) (m : Model) : Option Model → Prop
  | none => ¬Solvable cs m
  | some m' => Solves cs m m'

namespace Found

variable {b : Bool} {r r' : Option Model}

theorem of_extend (h : Found cs (m.extend v b) r) (hv : v ∈ clauseVars cs)
    (hs : Solvable cs m → Solvable cs (m.extend v b)) : Found cs m r := by
  cases r
  case none => exact fun hm => h (hs hm)
  case some m' => exact Solves.of_extend h hv

theorem of_branch (h : Found cs (m.extend v true) r) (h' : Found cs (m.extend v false) r')
    (hf : v ∈ freeVars cs m) : Found cs m (r <|> r') := by
  have ⟨hv, hf⟩ := mem_freeVars.mp hf
  cases r
  case some m' => exact Solves.of_extend h hv
  case none =>
    apply of_extend h' hv
    intro hs
    exact (hs.branch hf).resolve_left h

end Found

-- The search as far as the model is concerned, without the count of its decisions.
theorem model_solve (cs : List Clause) (m : Model) : (solve cs m).model =
    match openClauses? cs m with
    | none => none
    | some [] => some m
    | some opened =>
      match forced? opened m with
      | some l => (solve cs (m.assign l)).model
      | none =>
        match freeVars cs m with
        | [] => none
        | v :: _ => (solve cs (m.extend v true)).model <|> (solve cs (m.extend v false)).model := by
  rw [solve.eq_def]
  split
  case h_1 ho => simp only [ho]
  case h_2 ho => simp only [ho]
  case h_3 opened hne ho =>
    split
    case h_1 l hf => simp only [ho, hf]
    case h_2 hf =>
      split
      case h_1 hv => simp only [ho, hf, hv]
      case h_2 v _ hv =>
        simp only [ho, hf, hv]
        split
        case h_1 m' h₁ => simp [h₁]
        case h_2 h₁ => simp [h₁]

-- A forced literal loses no solution, and where none is forced an open clause leaves a variable to be
-- tried both ways. So the search gives up only where there is nothing to find.
theorem solve_found (cs : List Clause) (m : Model) : Found cs m (solve cs m).model := by
  rw [model_solve]
  split
  case h_1 ho =>
    have ⟨c, hc, hv⟩ := openClauses?_eq_none.mp ho
    intro ⟨ν, he, hs⟩
    exact he.not_satisfies hv (hs c hc)
  case h_2 ho =>
    have ht : ∀ c ∈ cs, m.clauseValue c = some true :=
      fun c hc => clauseValue_of_not_mem_openClauses? ho hc List.not_mem_nil
    exact ⟨ht, fun _ hv => .inl hv⟩
  case h_3 opened hne ho =>
    split
    case h_1 l hl =>
      have free := forced?_free ho hl
      have := freeVars_extend_length l.positive free
      have hi := solve_found cs (m.assign l)
      exact hi.of_extend (mem_freeVars.mp free).left fun hs => hs.forced ho hl
    case h_2 =>
      split
      -- Giving up for want of a variable would be wrong here, but cannot happen.
      case h_1 hv => exact absurd hv (freeVars_ne_nil ho hne)
      case h_2 v _ hv =>
        have free : v ∈ freeVars cs m := by simp [hv]
        have := freeVars_extend_length true free
        have := freeVars_extend_length false free
        exact .of_branch (solve_found cs _) (solve_found cs _) free
termination_by (freeVars cs m).length

variable {s : Sentence}

-- From the empty model, a solution is a valuation under which the sentence is true.
theorem solvable_empty_iff : Solvable s.clauses ∅ ↔ ∃ ν : Valuation, ν.holds s := by
  constructor
  case mp => exact fun ⟨ν, _, hs⟩ => ⟨ν, Valuation.holds_iff_clauses.mpr hs⟩
  case mpr => exact fun ⟨ν, hs⟩ => ⟨ν, ν.extends_empty, Valuation.holds_iff_clauses.mp hs⟩

theorem findModel_found (s : Sentence) : Found s.clauses ∅ (findModel s).value :=
  solve_found s.clauses ∅

namespace Solves

variable {m' : Model}

theorem eval_eq_true (h : Solves s.clauses m m') : m'.eval s = some true :=
  Model.eval_eq_true_iff_clauses.mpr h.clauseValue

theorem holds (h : Solves s.clauses m m') (he : ν.Extends m') : ν.holds s :=
  he.holds_eq h.eval_eq_true

end Solves

theorem isSome_findModel_iff : (findModel s).value.isSome ↔ ∃ ν : Valuation, ν.holds s := by
  have h := findModel_found s
  cases hm : (findModel s).value
  case none =>
    rw [hm] at h
    exact iff_of_false Bool.false_ne_true (mt solvable_empty_iff.mpr h)
  case some m =>
    rw [hm] at h
    exact iff_of_true rfl ⟨.complete m, h.holds (Valuation.complete_extends m)⟩

theorem findModel_decides (s : Sentence) :
    ((findModel s).value = none ↔ ¬∃ ν : Valuation, ν.holds s) ∧
      ∀ m, (findModel s).value = some m →
        (∀ v, m.value v ≠ none → v ∈ clauseVars s.clauses) ∧ m.eval s = some true ∧
          ∀ ν : Valuation, ν.Extends m → ν.holds s := by
  constructor
  case left => rw [← isSome_findModel_iff, Option.not_isSome_iff_eq_none]
  case right =>
    intro m hm
    have h := findModel_found s
    rw [hm] at h
    refine ⟨fun v hv => ?_, h.eval_eq_true, fun ν he => h.holds he⟩
    exact (h.vars v hv).resolve_left (· (Model.value_empty v))

theorem findModel_decides_either :
    let a := Sentence.var ⟨"A"⟩
    let b := Sentence.var ⟨"B"⟩
    let s := Sentence.and (.or a b) (.not (.iff a b))
    let m : Model := { entries := [(⟨"A"⟩, true), (⟨"B"⟩, false)], sorted := by decide }
    (findModel s).value = some m ∧ (∀ v, m.value v ≠ none → v ∈ clauseVars s.clauses) ∧
      m.eval s = some true ∧ ∀ ν : Valuation, ν.Extends m → ν.holds s := by
  intro a b s m
  have hm : (findModel s).value = some m := by cbv
  exact ⟨hm, (findModel_decides s).right m hm⟩

end Sentential.Dpll
