import Sentential.Clause.Resolution

namespace Sentential

namespace VarSet

-- All sets of variables from a list.
def subsetsOf : List Var → List VarSet
  | [] => [∅]
  | v :: vs => subsetsOf vs ++ (subsetsOf vs).map (·.insert v)

theorem mem_subsetsOf {s : VarSet} {vs : List Var} : (∀ v ∈ s, v ∈ vs) → s ∈ subsetsOf vs := by
  induction vs generalizing s
  case nil =>
    intro h
    have : s = ∅ := ext fun v => iff_of_false (fun m => nomatch h v m) (not_mem_empty v)
    simp [subsetsOf, this]
  case cons w ws ih =>
    intro h
    rw [subsetsOf, List.mem_append, List.mem_map]
    by_cases hw : w ∈ s
    case pos =>
      refine .inr ⟨s.erase w, ih fun v hv => ?_, ext fun v => ?_⟩
      · rw [mem_erase] at hv
        exact (List.mem_cons.mp (h v hv.1)).resolve_left hv.2
      · rw [mem_insert, mem_erase]
        by_cases e : v = w
        case pos => simp [e, hw]
        case neg => simp [e]
    case neg =>
      refine .inl (ih fun v hv => (List.mem_cons.mp (h v hv)).resolve_left fun e => hw (e ▸ hv))

end VarSet

namespace Clause

def Within (c : Clause) (scope : VarSet) : Prop :=
  ∀ v ∈ c.vars, v ∈ scope

theorem Within.of_resolve {c d r : Clause} {scope : VarSet} (h : c.resolve d = .clause r)
    (hc : c.Within scope) (hd : d.Within scope) : r.Within scope :=
  fun v hv => (vars_of_resolve h hv).elim (hc v) (hd v)

theorem within_clauseVars {c : Clause} {cs : List Clause} (h : c ∈ cs) :
    c.Within (clauseVars cs) :=
  fun _ hv => mem_clauseVars.mpr ⟨c, h, hv⟩

-- All clauses whose variables are in `scope`.
def allWithin (scope : VarSet) : List Clause :=
  (VarSet.subsetsOf scope.toList).flatMap fun p =>
    (VarSet.subsetsOf scope.toList).map fun n => ⟨p, n⟩

theorem mem_allWithin {c : Clause} {scope : VarSet} (h : c.Within scope) :
    c ∈ allWithin scope := by
  refine List.mem_flatMap.mpr ⟨c.positive, VarSet.mem_subsetsOf fun v hv => ?_,
    List.mem_map.mpr ⟨c.negative, VarSet.mem_subsetsOf fun v hv => ?_, rfl⟩⟩
  · exact h v (mem_vars.mpr (.inl hv))
  · exact h v (mem_vars.mpr (.inr hv))

end Clause
end Sentential
