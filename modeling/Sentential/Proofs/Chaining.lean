import Sentential.Proofs.Horn
import Sentential.Proofs.Visiting

namespace Sentential.Chaining

-- The least set of variables that is closed under the clauses.
inductive Derives (cs : List HornClause) : Var → Prop
  | fire {c} : c ∈ cs → (∀ v ∈ c.premises, Derives cs v) → Derives cs c.head

theorem Derives.holds {cs : List HornClause} {v : Var} {ν : Valuation} (h : Derives cs v)
    (hs : ∀ c ∈ cs, ν.Respects c) : ν v := by
  induction h
  case fire c hc _ hi => exact hs c hc hi

-- The other way round, the least set is itself a valuation that respects the clauses.
open Classical in
theorem derives_iff {cs : List HornClause} {v : Var} :
    Derives cs v ↔ ∀ ν : Valuation, (∀ c ∈ cs, ν.Respects c) → ν v := by
  constructor
  case mp => exact fun h ν hs => h.holds hs
  case mpr =>
    intro h
    apply of_decide_eq_true
    apply h fun w => decide (Derives cs w)
    intro c hc hp
    exact decide_eq_true <| .fire hc fun w hw => of_decide_eq_true (hp w hw)

-- What taking a variable from the agenda can lead to.
inductive Takes (query : Var) (s : State) : Outcome ⊕ State → Prop
  | exhaust : s.agenda = [] → Takes query s (.inl (.exhausted s.inferred))
  | reach {rest} : s.agenda = query :: rest → Takes query s (.inl .reached)
  | skip {v rest} : s.agenda = v :: rest → v ≠ query → v ∈ s.inferred →
    Takes query s (.inr { s with agenda := rest })
  | fire {v rest} : s.agenda = v :: rest → v ≠ query → v ∉ s.inferred → query ∈ firedHeads v s.rules →
    Takes query s (.inl .reached)
  | infer {v rest} : s.agenda = v :: rest → v ≠ query → v ∉ s.inferred → query ∉ firedHeads v s.rules →
    Takes query s (.inr (s.infer v rest))

theorem step_takes {query : Var} {s : State} {next : Outcome ⊕ State}
    (h : (step query s).value = next) : Takes query s next := by
  subst h
  unfold step
  split
  case h_1 ha => exact .exhaust ha
  case h_2 v rest ha =>
    split
    case isTrue hq => exact .reach (hq ▸ ha)
    case isFalse hq =>
      split
      case isTrue hi => exact .skip ha hq hi
      case isFalse hi =>
        simp only [Traced.value_bind, Traced.value_pure, State.conclude_eq]
        split
        case isTrue hf => exact .fire ha hq hi hf
        case isFalse hf => exact .infer ha hq hi hf

-- Of premises that are listed once each, one less is missing once `v` is inferred.
theorem countP_insert {vs : List Var} {t : VarSet} {v : Var} (hn : vs.Nodup) (ht : v ∉ t) :
    vs.countP (· ∉ t) = vs.countP (· ∉ t.insert v) + if v ∈ vs then 1 else 0 := by
  induction vs
  case nil => rfl
  case cons w ws hi =>
    have ⟨hw, hn⟩ := List.nodup_cons.mp hn
    have hi := hi hn
    by_cases he : w = v
    case pos =>
      cases he
      rw [List.countP_cons_of_pos (by simpa using ht), List.countP_cons_of_neg (by simp), hi]
      simp [hw]
    case neg =>
      simp only [List.countP_cons, VarSet.mem_insert, List.mem_cons, he, Ne.symm he, false_or, hi]
      omega

namespace Rule

variable {v : Var} {r : Rule} {t : VarSet}

theorem missing_discharge (hm : r.missing = r.clause.premises.countP (· ∉ t)) (ht : v ∉ t) :
    (r.discharge v).missing = r.clause.premises.countP (· ∉ t.insert v) := by
  have := countP_insert r.clause.nodup ht
  unfold discharge
  split
  case isTrue hv =>
    simp only [hv, if_true] at this
    simp only [countDown, hm, this, Nat.add_sub_cancel]
  case isFalse hv =>
    simp only [hv, if_false] at this
    rw [hm, this, Nat.add_zero]

-- Of a rule that fires, all premises are inferred then.
theorem mem_insert_of_firesOn (hm : r.missing = r.clause.premises.countP (· ∉ t)) (ht : v ∉ t)
    (hf : r.firesOn v) {w : Var} (hw : w ∈ r.clause.premises) : w ∈ t.insert v := by
  have h₀ := (firesOn_iff_discharge.mp hf).right
  rw [missing_discharge hm ht] at h₀
  by_contra hn
  exact List.countP_eq_zero.mp h₀ w hw (decide_eq_true hn)

end Rule

-- What holds of the state before every step.
structure State.Invariant (cs : List HornClause) (query : Var) (s : State) : Prop where
  clauses : s.rules.map Rule.clause = cs
  missing : ∀ r ∈ s.rules, r.missing = r.clause.premises.countP (· ∉ s.inferred)
  derives : ∀ v, v ∈ s.inferred ∨ v ∈ s.agenda → Derives cs v
  fired : ∀ r ∈ s.rules, r.missing = 0 → r.clause.head ∈ s.inferred ∨ r.clause.head ∈ s.agenda
  unreached : query ∉ s.inferred

namespace State.Invariant

variable {cs : List HornClause} {query v : Var} {s : State} {rest : List Var} {r : Rule}

theorem start (cs : List HornClause) (query : Var) : (State.start cs).Invariant cs query where
  clauses := by simp [State.start, Function.comp_def, Rule.ofClause]
  missing := by simp [State.start, Rule.ofClause]
  derives v hv := by
    -- The agenda starts with the heads of the facts, which have no premises.
    have hv := hv.resolve_left (VarSet.not_mem_empty v)
    obtain ⟨c, hc, hh⟩ := List.mem_map.mp hv
    obtain ⟨hc, hf⟩ := List.mem_filter.mp hc
    refine hh ▸ .fire hc fun w hw => ?_
    simp [List.isEmpty_iff.mp hf] at hw
  fired r hr hm := by
    obtain ⟨c, hc, rfl⟩ := List.mem_map.mp hr
    have hf : c.isFact := List.isEmpty_iff.mpr (List.length_eq_zero_iff.mp hm)
    exact .inr <| List.mem_map.mpr ⟨c, List.mem_filter.mpr ⟨hc, hf⟩, rfl⟩
  unreached := VarSet.not_mem_empty query

theorem mem_clauses (hs : s.Invariant cs query) (hr : r ∈ s.rules) : r.clause ∈ cs :=
  hs.clauses ▸ List.mem_map_of_mem hr

theorem derives_fired (hs : s.Invariant cs query) (ha : s.agenda = v :: rest) (hv : v ∉ s.inferred)
    {w : Var} (hw : w ∈ firedHeads v s.rules) : Derives cs w := by
  have ⟨r, hr, hh⟩ := List.mem_map.mp hw
  have ⟨hr, hf⟩ := List.mem_filter.mp hr
  refine hh ▸ .fire (hs.mem_clauses hr) fun u hu => ?_
  have hu := Rule.mem_insert_of_firesOn (hs.missing r hr) hv hf hu
  cases VarSet.mem_insert.mp hu
  case inl hu => exact hs.derives u <| .inr (by simp [ha, hu])
  case inr hu => exact hs.derives u <| .inl hu

theorem skip (hs : s.Invariant cs query) (ha : s.agenda = v :: rest) (hv : v ∈ s.inferred) :
    State.Invariant cs query { s with agenda := rest } where
  clauses := hs.clauses
  missing := hs.missing
  derives w hw := hs.derives w <| hw.imp_right fun hw => by simp [ha, hw]
  fired r hr hm := by
    have := hs.fired r hr hm
    rw [ha, List.mem_cons] at this
    exact this.elim .inl fun hh => hh.elim (fun hh => .inl (hh ▸ hv)) .inr
  unreached := hs.unreached

theorem infer (hs : s.Invariant cs query) (ha : s.agenda = v :: rest) (hv : v ∉ s.inferred)
    (hq : v ≠ query) : (s.infer v rest).Invariant cs query where
  clauses := by
    rw [← hs.clauses]
    simp [State.infer, Function.comp_def]
  missing r hr := by
    obtain ⟨r', hr', he⟩ := List.mem_map.mp hr
    rw [← he, Rule.clause_discharge]
    exact Rule.missing_discharge (hs.missing r' hr') hv
  derives w hw := by
    simp only [State.infer, VarSet.mem_insert, List.mem_append] at hw
    -- What is new on the agenda are the heads of the rules that fire on `v`.
    obtain (hw | hw) | hw | hw := hw
    · exact hs.derives w <| .inr (by simp [ha, hw])
    · exact hs.derives w <| .inl hw
    · exact hs.derives w <| .inr (by simp [ha, hw])
    · exact hs.derives_fired ha hv hw
  fired r hr hm := by
    obtain ⟨r', hr', he⟩ := List.mem_map.mp hr
    cases he
    simp only [State.infer, VarSet.mem_insert, List.mem_append, Rule.clause_discharge]
    by_cases h₀ : r'.missing = 0
    case pos =>
      -- The head was there before the step. If it is `v` itself, it is inferred now.
      have := hs.fired r' hr' h₀
      rw [ha, List.mem_cons] at this
      grind
    case neg =>
      -- The counter has just come down to zero, so `v` was the premise that was missing.
      have hf : r'.firesOn v := Rule.firesOn_iff_discharge.mpr ⟨h₀, hm⟩
      exact .inr <| .inr <| List.mem_map.mpr ⟨r', List.mem_filter.mpr ⟨hr', hf⟩, rfl⟩
  unreached := by
    simp only [State.infer, VarSet.mem_insert]
    exact fun h => h.elim (Ne.symm hq) hs.unreached

theorem next {t : State} (hs : s.Invariant cs query) (h : (step query s).value = .inr t) :
    t.Invariant cs query := by
  cases step_takes h
  case skip ha _ hv => exact hs.skip ha hv
  case infer ha hq hv _ => exact hs.infer ha hv hq

-- With nothing left on the agenda, what is inferred is closed under the clauses.
theorem mem_inferred_iff (hs : s.Invariant cs query) (ha : s.agenda = []) :
    v ∈ s.inferred ↔ Derives cs v := by
  constructor
  case mp => exact fun hv => hs.derives v (.inl hv)
  case mpr =>
    intro h
    induction h
    case fire c hc _ hi =>
      have ⟨r, hr, he⟩ := List.mem_map.mp (hs.clauses ▸ hc)
      cases he
      have hm : r.missing = 0 := by
        rw [hs.missing r hr, List.countP_eq_zero]
        simpa using hi
      have := hs.fired r hr hm
      simpa [ha] using this

end State.Invariant

-- What an outcome says about the clauses that chaining began with.
def Outcome.Justified (cs : List HornClause) (query : Var) : Outcome → Prop
  | reached => Derives cs query
  | exhausted inferred => query ∉ inferred ∧ ∀ v, v ∈ inferred ↔ Derives cs v

theorem value_run (query : Var) (s : State) : (run query s).value =
    match (step query s).value with
    | .inl o => o
    | .inr s' => (run query s').value := by
  rw [run.eq_def]
  dsimp only
  split
  case h_1 o h => simp only [h]
  case h_2 s' h => simp only [h]

theorem run_justified {cs : List HornClause} {query : Var} {s : State} (hs : s.Invariant cs query) :
    (run query s).value.Justified cs query := by
  rw [value_run]
  split
  case h_1 o h =>
    cases step_takes h
    case exhaust ha => exact ⟨hs.unreached, fun _ => hs.mem_inferred_iff ha⟩
    case reach ha => exact hs.derives query <| .inr (by simp [ha])
    case fire ha _ hv hf => exact hs.derives_fired ha hv hf
  case h_2 s' h =>
    have := work_step h
    exact run_justified (hs.next h)
termination_by s.work

variable {cs : List HornClause} {query : Var}

theorem Outcome.Justified.isReached_iff {o : Outcome} (h : o.Justified cs query) :
    o.isReached ↔ Derives cs query := by
  cases o
  case reached => exact iff_of_true rfl h
  case exhausted inferred =>
    have ⟨hq, hi⟩ := h
    exact iff_of_false Bool.false_ne_true (mt (hi query).mpr hq)

theorem entails_iff_derives : (entails cs query).value ↔ Derives cs query :=
  (run_justified (.start cs query)).isReached_iff

end Sentential.Chaining
