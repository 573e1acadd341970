import Mathlib.Logic.Relation
import Mathlib.Order.Bounds.Basic
import Sentential.Proofs.Chaining

namespace Sentential.Chaining

variable {cs : List HornClause} {query v : Var} {s t u : State} {i : Nat}

-- The set holds the head of every clause of which it holds all premises.
def Closes (cs : List HornClause) (S : Set Var) : Prop :=
  ∀ c ∈ cs, (∀ v ∈ c.premises, v ∈ S) → c.head ∈ S

theorem isLeast_derives (cs : List HornClause) : IsLeast {S | Closes cs S} {v | Derives cs v} := by
  refine ⟨fun c hc hp => .fire hc hp, fun S hS v hv => ?_⟩
  induction hv
  case fire hc _ hi => exact hS _ hc hi

-- Working off one entry of the agenda leads from the first state to the second.
def Next (query : Var) (s t : State) : Prop :=
  (step query s).value = .inr t

-- The second state comes up before some step of the chaining that starts in the first one.
def Reaches (query : Var) : State → State → Prop :=
  Relation.ReflTransGen (Next query)

namespace State

-- The next entry of the agenda is `v`, and the step infers it.
structure Infers (query : Var) (s : State) (v : Var) : Prop where
  next : s.agenda.head? = some v
  other : v ≠ query
  fresh : v ∉ s.inferred

theorem infers_iff : s.Infers query v ↔ s.agenda.head? = some v ∧ v ≠ query ∧ v ∉ s.inferred where
  mp h := ⟨h.next, h.other, h.fresh⟩
  mpr h := ⟨h.left, h.right.left, h.right.right⟩

instance (query : Var) (s : State) (v : Var) : Decidable (s.Infers query v) :=
  decidable_of_iff _ infers_iff.symm

theorem infers_of_agenda {w : Var} {rest : List Var} (ha : s.agenda = w :: rest) :
    s.Infers query v ↔ v = w ∧ v ≠ query ∧ v ∉ s.inferred := by
  rw [infers_iff, ha, List.head?_cons, Option.some.injEq, eq_comm]

-- Whether the next entry of the agenda is inferred and brings the counter of the rule down to zero.
def completes (query : Var) (s : State) (r : Rule) : Bool :=
  s.agenda.head?.any fun v => s.Infers query v ∧ r.missing ≠ 0 ∧ (r.discharge v).missing = 0

end State

theorem State.completes_iff {r : Rule} :
    s.completes query r ↔ ∃ v, s.Infers query v ∧ r.firesOn v := by
  simp only [completes, Option.any_eq_true, decide_eq_true_eq, ← Rule.firesOn_iff_discharge]
  exact ⟨fun ⟨v, _, h⟩ => ⟨v, h⟩, fun ⟨v, h⟩ => ⟨v, h.left.next, h⟩⟩

namespace Next

-- A step that is not the last one drops the next entry of the agenda or infers it.
theorem cases (h : Next query s t) :
    (∀ v, ¬s.Infers query v) ∧ t = { s with agenda := s.agenda.tail } ∨
      ∃ w, (∀ v, s.Infers query v ↔ v = w) ∧ t = s.infer w s.agenda.tail := by
  cases step_takes h
  case skip w rest ha _ hw =>
    refine .inl ⟨fun v hv => ?_, by rw [ha, List.tail_cons]⟩
    have ⟨he, _, hn⟩ := (State.infers_of_agenda ha).mp hv
    exact hn (he ▸ hw)
  case infer w rest ha hq hw _ =>
    refine .inr ⟨w, fun v => ?_, by rw [ha, List.tail_cons]⟩
    rw [State.infers_of_agenda ha]
    exact and_iff_left_of_imp fun he => ⟨he ▸ hq, he ▸ hw⟩

theorem mem_inferred_iff (h : Next query s t) : v ∈ t.inferred ↔ v ∈ s.inferred ∨ s.Infers query v := by
  obtain ⟨hn, rfl⟩ | ⟨w, hw, rfl⟩ := h.cases
  · simp [hn]
  · rw [hw, State.infer, VarSet.mem_insert, or_comm]

-- Just the rules that are completed put their heads onto the agenda.
theorem agenda_eq (h : Next query s t) :
    t.agenda = s.agenda.tail ++ (s.rules.filter (s.completes query)).map (·.clause.head) := by
  obtain ⟨hn, rfl⟩ | ⟨w, hw, rfl⟩ := h.cases
  · have : ∀ r ∈ s.rules, ¬s.completes query r := by simp [State.completes_iff, hn]
    rw [List.filter_eq_nil_iff.mpr this, List.map_nil, List.append_nil]
  · have : ∀ r ∈ s.rules, s.completes query r = r.firesOn w := by
      intro r _
      rw [Bool.eq_iff_iff, State.completes_iff]
      simp [hw]
    rw [List.filter_congr this, State.infer, firedHeads]

end Next

namespace Reaches

theorem mem_inferred (h : Reaches query s t) (hv : v ∈ s.inferred) : v ∈ t.inferred := by
  induction h
  case refl => exact hv
  case tail hn hi => exact Next.mem_inferred_iff hn |>.mpr <| .inl hi

theorem invariant (h : Reaches query s t) (hs : s.Invariant cs query) : t.Invariant cs query := by
  induction h
  case refl => exact hs
  case tail hn hi => exact hi.next hn

end Reaches

-- The heads of facts are on the agenda from the start, and no fact puts its head there again.
theorem Rule.not_isFact_of_completes {r : Rule} (h : s.completes query r) : ¬r.clause.isFact := by
  intro he
  have ⟨v, _, hf⟩ := State.completes_iff.mp h
  have hp := (firesOn_iff.mp hf).left
  rw [List.isEmpty_iff.mp he] at hp
  cases hp

-- The counter gives up as many as the rule has premises `v`, and has them to give.
theorem Rule.missing_discharge_add_count {r : Rule} {known : VarSet}
    (hm : r.missing = r.clause.premises.countP (· ∉ known)) (hv : v ∉ known) :
    (r.discharge v).missing + r.clause.premises.count v = r.missing := by
  rw [missing_discharge hm hv, r.clause.nodup.count, hm, countP_insert r.clause.nodup hv]

namespace State.Invariant

-- The rules that a step visits have a premise missing, which is the one that it infers.
theorem countDown_of_mem_places (hs : s.Invariant cs query) (hv : v ∉ s.inferred)
    (hi : i ∈ s.index.places v) : ∃ r, s.rules[i]? = some r ∧ r.countDown.missing + 1 = r.missing := by
  rw [s.places_index] at hi
  obtain ⟨hlt, hp⟩ := List.mem_findIdxs_iff_exists_getElem_pos.mp hi
  have hp : v ∈ s.rules[i].clause.premises := of_decide_eq_true hp
  have hm := Rule.missing_discharge_add_count (hs.missing _ (List.getElem_mem hlt)) hv
  rw [Rule.discharge, if_pos hp, s.rules[i].clause.nodup.count, if_pos hp] at hm
  exact ⟨s.rules[i], List.getElem?_eq_getElem hlt, hm⟩

theorem rules_eq (hs : s.Invariant cs query) :
    s.rules = cs.map fun c => ⟨c, c.premises.countP (· ∉ s.inferred)⟩ := by
  rw [← hs.clauses, List.map_map]
  conv_lhs => rw [← List.map_id s.rules]
  apply List.map_congr_left
  intro r hr
  rw [Function.comp_apply, ← hs.missing r hr, id]

theorem getElem?_clause (hs : s.Invariant cs query) {r : Rule} (hr : s.rules[i]? = some r) :
    cs[i]? = some r.clause := by
  rw [← hs.clauses, List.getElem?_map, hr, Option.map_some]

-- Once it is completed, all premises of a rule are inferred, so no later entry is one that it misses.
theorem not_completes_again (hs : s.Invariant cs query) {r r' : Rule} (hi : s.rules[i]? = some r)
    (hc : s.completes query r) (hn : Next query s t) (hr : Reaches query t u)
    (hi' : u.rules[i]? = some r') : ¬u.completes query r' := by
  intro hc'
  obtain ⟨v, hv, hf⟩ := completes_iff.mp hc
  obtain ⟨w, hw, hf'⟩ := completes_iff.mp hc'
  have hu : u.Invariant cs query := hr.invariant (hs.next hn)
  have he : r'.clause = r.clause :=
    Option.some.inj <| (hu.getElem?_clause hi').symm.trans (hs.getElem?_clause hi)
  have hp := (Rule.firesOn_iff.mp hf').left
  rw [he] at hp
  have hm := Rule.mem_insert_of_firesOn (hs.missing r (List.mem_of_getElem? hi)) hv.fresh hf hp
  have ht : w ∈ t.inferred := by
    rw [hn.mem_inferred_iff]
    cases VarSet.mem_insert.mp hm
    case inl he => exact .inr (he ▸ hv)
    case inr hm => exact .inl hm
  exact hw.fresh (hr.mem_inferred ht)

end State.Invariant

theorem events_step (query : Var) (s : State) : ∃ log : List Var,
    (step query s).events = log.map .inferred ∧ log.Nodup ∧ ∀ v ∈ log, s.Infers query v := by
  unfold step
  split
  case h_1 => exact ⟨[], rfl, by simp⟩
  case h_2 v rest ha =>
    split
    case isTrue => exact ⟨[], rfl, by simp⟩
    case isFalse hq =>
      split
      case isTrue => exact ⟨[], rfl, by simp⟩
      case isFalse hv =>
        refine ⟨[v], rfl, List.nodup_singleton v, List.forall_mem_singleton.mpr ?_⟩
        exact (State.infers_of_agenda ha).mpr ⟨rfl, hq, hv⟩

theorem events_run (query : Var) (s : State) : (run query s).events = (step query s).events ++
    match (step query s).value with
    | .inl _ => []
    | .inr t => (run query t).events := by
  rw [run.eq_def]
  dsimp only
  split
  case h_1 o h => simp only [h, List.append_nil]
  case h_2 t h => simp only [h]

-- What a step infers is inferred from then on, so the rest of the run does not log it again.
theorem exists_log_run (query : Var) (s : State) : ∃ log : List Var,
    (run query s).events = log.map .inferred ∧ log.Nodup ∧ ∀ v ∈ log, v ∉ s.inferred := by
  have ⟨log, he, hn, hi⟩ := events_step query s
  rw [events_run, he]
  split
  case h_1 => exact ⟨log, List.append_nil _, hn, fun v hv => (hi v hv).fresh⟩
  case h_2 t h =>
    have := work_step h
    obtain ⟨log', he', hn', hi'⟩ := exists_log_run query t
    have ht : ∀ v, v ∈ t.inferred ↔ v ∈ s.inferred ∨ s.Infers query v :=
      fun v => Next.mem_inferred_iff h
    refine ⟨log ++ log', by rw [he', List.map_append], List.nodup_append'.mpr ⟨hn, hn', ?_⟩,
      List.forall_mem_append.mpr ⟨fun v hv => (hi v hv).fresh, fun v hv hs => ?_⟩⟩
    · exact fun v hv hv' => hi' v hv' <| (ht v).mpr <| .inr (hi v hv)
    · exact hi' v hv <| (ht v).mpr <| .inl hs
termination_by s.work

theorem exists_reaches_stop (query : Var) (s : State) :
    ∃ t, Reaches query s t ∧ (step query t).value = .inl (run query s).value := by
  rw [value_run]
  split
  case h_1 o h => exact ⟨s, .refl, h⟩
  case h_2 t h =>
    have := work_step h
    obtain ⟨u, hr, hu⟩ := exists_reaches_stop query t
    exact ⟨u, .head h hr, hu⟩
termination_by s.work

theorem entails_works_off_agenda (cs : List HornClause) (query : Var) :
    (∀ s, Reaches query (.start cs) s →
      s.rules = cs.map (fun c => ⟨c, c.premises.countP (· ∉ s.inferred)⟩) ∧
      (∀ v, s.Infers query v →
        (s.index.places v).Nodup ∧
        (∀ i ∈ s.index.places v, ∃ r, s.rules[i]? = some r ∧ r.countDown.missing + 1 = r.missing) ∧
        ∀ r ∈ s.rules, (r.discharge v).missing + r.clause.premises.count v = r.missing) ∧
      (∀ t, Next query s t →
        t.agenda = s.agenda.tail ++ (s.rules.filter (s.completes query)).map (·.clause.head)) ∧
      ∀ (i : Nat) (r : Rule), s.rules[i]? = some r → s.completes query r → ¬r.clause.isFact ∧
        ∀ t u r', Next query s t → Reaches query t u → u.rules[i]? = some r' →
          ¬u.completes query r') ∧
    (∃ log : List Var, (entails cs query).events = log.map .inferred ∧ log.Nodup) ∧
    ∃ least : Set Var, IsLeast {S | Closes cs S} least ∧
      ∃ s, Reaches query (.start cs) s ∧
        (((entails cs query).value = false ∧ (step query s).value = .inl (.exhausted s.inferred) ∧
          {v | v ∈ s.inferred} = least) ∨
        ((entails cs query).value = true ∧ (step query s).value = .inl .reached ∧ query ∈ least)) := by
  have h₀ := State.Invariant.start cs query
  refine ⟨fun s hr => ?_, ?_, {v | Derives cs v}, isLeast_derives cs, ?_⟩
  · have hs := hr.invariant h₀
    refine ⟨hs.rules_eq, fun v hv => ⟨?_, fun i => hs.countDown_of_mem_places hv.fresh, fun r hm => ?_⟩,
      fun t => Next.agenda_eq, fun i r hi hc => ?_⟩
    · exact s.places_index v ▸ List.nodup_findIdxs
    · exact Rule.missing_discharge_add_count (hs.missing r hm) hv.fresh
    · exact ⟨Rule.not_isFact_of_completes hc, fun t u r' => hs.not_completes_again hi hc⟩
  · have ⟨log, he, hn, _⟩ := exists_log_run query (.start cs)
    exact ⟨log, he, hn⟩
  · obtain ⟨s, hr, hs⟩ := exists_reaches_stop query (.start cs)
    have hv : (entails cs query).value = (run query (.start cs)).value.isReached := rfl
    have hj := run_justified h₀
    refine ⟨s, hr, ?_⟩
    cases ho : (run query (.start cs)).value
    case reached =>
      rw [ho] at hv hs hj
      exact .inr ⟨hv, hs, hj⟩
    case exhausted inferred =>
      rw [ho] at hv hs hj
      cases step_takes hs
      case exhaust => exact .inl ⟨hv, hs, Set.ext hj.right⟩

-- `A` leads to `B` and back to `A`, which is skipped then. `C` is never inferred, and so neither is `D`.
theorem entails_works_off_agenda_cycle :
    let a : Var := ⟨"A"⟩
    let b : Var := ⟨"B"⟩
    let c : Var := ⟨"C"⟩
    let d : Var := ⟨"D"⟩
    let cs := [HornClause.new a [], .new b [a, a], .new a [b], .new d [a, c]]
    let s : State := (State.start cs).infer a []
    Reaches d (.start cs) s ∧ s.Infers d b ∧ s.rules.map Rule.missing = [0, 0, 1, 1] ∧
      s.index.places b = [2] ∧
      (∀ i ∈ s.index.places b, ∃ r, s.rules[i]? = some r ∧ r.countDown.missing + 1 = r.missing) ∧
      (∀ r ∈ s.rules, (r.discharge b).missing + r.clause.premises.count b = r.missing) ∧
      s.rules.map (s.completes d) = [false, false, true, false] ∧
      (∀ t u r, Next d s t → Reaches d t u → u.rules[2]? = some r → ¬u.completes d r) ∧
      (entails cs d).value = false ∧
      ∃ t, Reaches d (.start cs) t ∧ IsLeast {S | Closes cs S} {v | v ∈ t.inferred} := by
  intro a b c d cs s
  have hn : (step d (.start cs)).value = .inr s := by decide +kernel
  have hr : Reaches d (.start cs) s := .single hn
  have hi : s.Infers d b := by decide
  have hv : (entails cs d).value = false := by decide +kernel
  obtain ⟨hs, _, least, hl, t, ht, ho⟩ := entails_works_off_agenda cs d
  obtain ⟨hm, hd, _, hc⟩ := hs s hr
  obtain ⟨_, hp, hd⟩ := hd b hi
  refine ⟨hr, hi, by rw [hm]; rfl, by decide +kernel, hp, hd, rfl, (hc 2 _ rfl rfl).right, hv, t, ht, ?_⟩
  obtain ⟨_, _, he⟩ | ⟨hv', _⟩ := ho
  · exact he ▸ hl
  · cases hv.symm.trans hv'

end Sentential.Chaining
