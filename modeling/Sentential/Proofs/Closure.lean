import Mathlib.Order.Bounds.Basic
import Sentential.Proofs.Saturation

namespace Sentential.Saturation

variable {cs ds known settled pending fresh fresh' lefts : List Clause} {right c : Clause}
  {scope : VarSet}

-- The set holds the clauses, and what any two of its members resolve to.
structure Closes (cs : List Clause) (S : Set Clause) : Prop where
  given : ∀ c ∈ cs, c ∈ S
  resolve : ∀ c ∈ S, ∀ d ∈ S, ∀ r, c.resolve d = .clause r → r ∈ S

theorem isLeast_derivable (cs : List Clause) : IsLeast {S | Closes cs S} {c | Derivable cs c} := by
  refine ⟨⟨fun _ => .given, fun _ hc _ hd _ => .resolve hc hd⟩, fun S hS c hc => ?_⟩
  induction hc
  case given hc => exact hS.given _ hc
  case resolve hr hc hd => exact hS.resolve _ hc _ hd _ hr

namespace Outcome.Justified

theorem mem_iff (h : (saturated ds).Justified cs) : c ∈ ds ↔ Derivable cs c := by
  have ⟨hs, _, hg, hd⟩ := h
  have hc : Closes cs {c | c ∈ ds} := ⟨hg, hs⟩
  exact ⟨hd c, fun h => (isLeast_derivable cs).right hc h⟩

theorem isRefuted_iff_derivable {o : Outcome} (h : o.Justified cs) : o.isRefuted ↔ Derivable cs ∅ := by
  cases o
  case refuted => exact iff_of_true rfl h
  case saturated ds =>
    have ⟨_, he, _⟩ := h
    exact iff_of_false Bool.false_ne_true fun hd => he (h.mem_iff.mpr hd)

end Outcome.Justified

-- The second list goes on where the first one ends, with clauses that are not in it, each of them once.
def GrowsTo (cs ds : List Clause) : Prop :=
  ∃ fresh, ds = cs ++ fresh ∧ fresh.Nodup ∧ ∀ c ∈ fresh, c ∉ cs

namespace GrowsTo

theorem refl (cs : List Clause) : GrowsTo cs cs :=
  ⟨[], (List.append_nil cs).symm, List.nodup_nil, nofun⟩

theorem append (h : GrowsTo cs ds) (hn : fresh.Nodup) (hd : ∀ c ∈ fresh, c ∉ ds) :
    GrowsTo cs (ds ++ fresh) := by
  obtain ⟨old, rfl, ho, hc⟩ := h
  refine ⟨old ++ fresh, List.append_assoc .., List.nodup_append'.mpr ⟨ho, hn, ?_⟩, fun c hm => ?_⟩
  · exact fun c hm hf => hd c hf (List.mem_append_right _ hm)
  · exact (List.mem_append.mp hm).elim (hc c) fun hf hg => hd c hf (List.mem_append_left _ hg)

end GrowsTo

theorem nodup_takeUp (h : fresh.Nodup) (c : Clause) : (takeUp known fresh c).Nodup := by
  unfold takeUp
  split
  case isTrue => exact h
  case isFalse hn =>
    rw [← List.concat_eq_append]
    exact h.concat fun hc => hn (.inr hc)

theorem nodup_resolveWith (h : resolveWith known right lefts fresh = .ok fresh') (hf : fresh.Nodup) :
    fresh'.Nodup := by
  induction lefts generalizing fresh
  case nil => exact Except.ok.inj h ▸ hf
  case cons left lefts hi =>
    rw [resolveWith] at h
    split at h
    case h_1 =>
      split at h
      case isTrue => cases h
      case isFalse => exact hi h (nodup_takeUp hf _)
    case h_2 => exact hi h hf

theorem nodup_sweep (h : sweep known settled pending fresh = .ok fresh') (hf : fresh.Nodup) :
    fresh'.Nodup := by
  induction pending generalizing settled fresh
  case nil => exact Except.ok.inj h ▸ hf
  case cons p ps hi =>
    rw [sweep] at h
    split at h
    case h_1 => cases h
    case h_2 hr => exact hi h (nodup_resolveWith hr hf)

theorem State.growsTo_advance {s : State scope} (hs : GrowsTo cs s.clauses)
    (h : s.sweep = .ok fresh) : GrowsTo cs (s.advance fresh h).clauses :=
  hs.append (nodup_sweep h List.nodup_nil) fun c hc => (State.allNew h c hc).left

theorem run_growsTo {s : State scope} (round : Nat) (hs : GrowsTo cs s.clauses)
    (h : (run round s).value = .saturated ds) : GrowsTo cs ds := by
  induction round, s using run.induct
  case case1 round s hi =>
    rw [run, Traced.value_bind] at h
    split at h
    case h_1 => cases h
    case h_2 fresh hf =>
      split at h
      case isTrue =>
        cases h
        exact hs
      case isFalse hne => exact hi fresh hf hne (State.growsTo_advance hs hf) h

theorem saturate_growsTo (h : (saturate cs).value = .saturated ds) : GrowsTo cs ds := by
  unfold saturate at h
  split at h
  case isTrue => cases h
  case isFalse => exact run_growsTo (s := .start cs) 1 (.refl cs) h

-- The rounds that were begun.
def rounds (es : List Event) : Nat :=
  es.countP fun e => e matches .resolutionRound ..

theorem rounds_append (es fs : List Event) : rounds (es ++ fs) = rounds es + rounds fs :=
  List.countP_append

-- A round that is not the last one leaves fewer clauses to be found.
theorem rounds_run {s : State scope} (round : Nat) : rounds (run round s).events ≤ s.unknown + 1 := by
  induction round, s using run.induct
  case case1 round s hi =>
    have hr : rounds (Traced.emit (.resolutionRound round s.clauses.length s.pending.length)).events = 1 :=
      rfl
    rw [run, Traced.events_bind, rounds_append, hr]
    split
    case h_1 => exact Nat.le_add_left 1 _
    case h_2 fresh h =>
      split
      case isTrue => exact Nat.le_add_left 1 _
      case isFalse hne =>
        have hu := State.unknown_advance h hne
        calc
          1 + rounds (run (round + 1) (s.advance fresh h)).events
          _ ≤ 1 + ((s.advance fresh h).unknown + 1) := Nat.add_le_add_left (hi fresh h hne) 1
          _ ≤ s.unknown + 1 := by omega

theorem length_subsetsOf (vs : List Var) : (VarSet.subsetsOf vs).length = 2 ^ vs.length := by
  induction vs
  case nil => rfl
  case cons v vs hi =>
    rw [VarSet.subsetsOf, List.length_append, List.length_map, hi, List.length_cons, Nat.pow_succ,
      Nat.mul_two]

theorem length_allWithin (scope : VarSet) : (Clause.allWithin scope).length = 4 ^ scope.size := by
  simp [Clause.allWithin, List.length_flatMap, length_subsetsOf, VarSet.size, ← Nat.mul_pow]

theorem rounds_saturate (cs : List Clause) :
    rounds (saturate cs).events ≤ 4 ^ (clauseVars cs).size + 1 := by
  unfold saturate
  split
  case isTrue => exact Nat.zero_le _
  case isFalse =>
    have hr := rounds_run (s := .start cs) 1
    have hu : (State.start cs).unknown ≤ 4 ^ (clauseVars cs).size :=
      length_allWithin (clauseVars cs) ▸ List.countP_le_length
    omega

theorem unsatisfiable_refines_closure (cs : List Clause) :
    ∃ closure : Set Clause, IsLeast {S | Closes cs S} closure ∧
      ((unsatisfiable cs).value = true ↔ ∅ ∈ closure) ∧
      ((unsatisfiable cs).value = false → ∃ fresh,
        (saturate cs).value = .saturated (cs ++ fresh) ∧ {c | c ∈ cs ++ fresh} = closure ∧
          fresh.Nodup ∧ ∀ c ∈ fresh, c ∉ cs) ∧
      rounds (unsatisfiable cs).events ≤ 4 ^ (clauseVars cs).size + 1 := by
  have hj := saturate_justified cs
  refine ⟨{c | Derivable cs c}, isLeast_derivable cs, hj.isRefuted_iff_derivable, fun hf => ?_,
    rounds_saturate cs⟩
  cases ho : (saturate cs).value
  case refuted => simp [unsatisfiable, Traced.map, ho, Outcome.isRefuted] at hf
  case saturated ds =>
    obtain ⟨fresh, rfl, hn, hd⟩ := saturate_growsTo ho
    exact ⟨fresh, rfl, Set.ext fun c => (ho ▸ hj).mem_iff, hn, hd⟩

-- The unit clause takes away one literal, and the clause given twice stays so.
theorem unsatisfiable_refines_closure_unit :
    let a : Var := ⟨"A"⟩
    let b : Var := ⟨"B"⟩
    let either := Clause.ofLiterals [a.positive, b.positive]
    let cs := [either, .ofLiterals [b.negative], either]
    (unsatisfiable cs).value = false ∧ ∃ closure : Set Clause, IsLeast {S | Closes cs S} closure ∧
      ∅ ∉ closure ∧ ∃ fresh, {c | c ∈ cs ++ fresh} = closure ∧ fresh.Nodup ∧ ∀ c ∈ fresh, c ∉ cs := by
  intro a b either cs
  have hf : (unsatisfiable cs).value = false := by decide +kernel
  obtain ⟨closure, hl, ht, hs, _⟩ := unsatisfiable_refines_closure cs
  obtain ⟨fresh, _, hc, hn, hd⟩ := hs hf
  exact ⟨hf, closure, hl, fun he => Bool.false_ne_true (hf.symm.trans (ht.mpr he)), fresh, hc, hn, hd⟩

end Sentential.Saturation
