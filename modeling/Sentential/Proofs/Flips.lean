import Sentential.Proofs.WalkSat

namespace Sentential

namespace Model

variable {m : Model} {v w : Var} {c : Clause} {l : Literal}

theorem value_flip_ne_iff : (m.flip v).value w ≠ m.value w ↔ w = v := by
  rw [flip, value_extend]
  split
  case isTrue he =>
    subst he
    cases m.value w <;> simp
  case isFalse he => simp [he]

theorem clauseValue_flip_of_not_mem (h : v ∉ c.vars) : (m.flip v).clauseValue c = m.clauseValue c := by
  apply (Approximates.clauseValue c).congr
  intro w hw
  by_contra hn
  exact h (value_flip_ne_iff.mp hn ▸ hw)

-- All literals of a false clause are false, so it does not matter which one of them is turned over.
theorem clauseValue_flip_of_mem (hc : m.clauseValue c = some false) (hl : l ∈ c) :
    (m.flip l.var).clauseValue c = some true := by
  have hv := clauseValue_eq_false.mp hc l hl
  exact clauseValue_eq_true.mpr ⟨l, hl, by simp [flip, hv]⟩

end Model

namespace WalkSat

open Sentential.Random Sentential.Random.Draw

variable {σ : Type} {g : Generator σ} {p : Float} {cs : List Clause} {m : Model} {s : Sentence}
  {k : Pick} {st st' start stop : σ} {n left done maxFlips : Nat} {t : Traced (Option Model)}

-- The number of clauses that are true once the variable of the literal is turned over.
def score (cs : List Clause) (m : Model) (l : Literal) : Nat :=
  (cs.filter fun c => (m.flip l.var).clauseValue c = some true).length

theorem satisfiedCount_flip (cs : List Clause) (m : Model) (l : Literal) :
    satisfiedCount cs (m.flip l.var) = score cs m l :=
  List.countP_eq_length_filter

-- Of the literals with the highest score, the best one is the one listed first.
theorem bestFlip_first {c : Clause} {l k : Literal} (h : bestFlip cs m c.literals = some l) (hk : k ∈ c) :
    k = l ∨ score cs m k < score cs m l ∨ (score cs m k = score cs m l ∧ Clause.ListsBefore l k) := by
  simp only [bestFlip, firstBest_eq_argmax, satisfiedCount_flip, List.argmax_eq_some_iff] at h
  obtain ⟨hl, hmax, hfirst⟩ := h
  have hk := Clause.mem_literals.mpr hk
  obtain hlt | heq := Nat.lt_or_eq_of_le (hmax k hk)
  case inl => exact .inr (.inl hlt)
  case inr =>
    obtain hlt | hi := Nat.lt_or_eq_of_le (hfirst k hk (Nat.le_of_eq heq.symm))
    case inl =>
      have hs := List.pairwise_iff_getElem.mp c.literals_sorted _ _ (List.idxOf_lt_length_of_mem hl)
        (List.idxOf_lt_length_of_mem hk) hlt
      rw [List.getElem_idxOf, List.getElem_idxOf] at hs
      exact .inr (.inr ⟨heq, hs⟩)
    case inr => exact .inl ((List.idxOf_inj hl).mp hi).symm

-- The pick is a false clause, of which turning over the variable of one literal makes it true. If the
-- literal is not taken at random, it is the first one with the highest score.
structure Pick.Repairs (k : Pick) (cs : List Clause) (m : Model) : Prop where
  total : ∀ v ∈ clauseVars cs, m.value v ≠ none
  mem : k.clause ∈ cs
  nonempty : k.clause ≠ ∅
  violated : m.clauseValue k.clause = some false
  repaired : (k.apply m).clauseValue k.clause = some true
  flips : ∃ l ∈ k.clause, k.literal = some l ∧
    (∀ v, (k.apply m).value v ≠ m.value v ↔ v = l.var) ∧
    (k.atRandom = false → ∀ l' ∈ k.clause, l' = l ∨ score cs m l' < score cs m l ∨
      (score cs m l' = score cs m l ∧ Clause.ListsBefore l l'))

theorem clauseValue_of_mem_unsatisfied {c : Clause} (hm : m.Assigns (clauseVars cs))
    (hc : c ∈ unsatisfied cs m) : m.clauseValue c = some false := by
  have ⟨hc, hu⟩ := List.mem_filter.mp hc
  have ht : ∀ v ∈ c.vars, m.value v ≠ none := fun v hv => (hm v).mpr (mem_clauseVars.mpr ⟨c, hc, hv⟩)
  have ⟨b, hb, _⟩ := (Approximates.clauseValue c).total m ht
  cases b
  case false => exact hb
  case true => exact absurd hb (of_decide_eq_true hu)

namespace Pick.IsFor

theorem of_run (h : (pick g p cs m).run st = some (some k, st')) : k.IsFor cs m := by
  obtain ⟨hn, _⟩ | ⟨k, he, hk⟩ := ensures_pick g p cs m st _ st' h
  case inl => cases hn
  case inr =>
    cases he
    exact hk

theorem exists_literal (h : k.IsFor cs m) (he : ∅ ∉ cs) : ∃ l ∈ k.clause, k.literal = some l := by
  cases hl : k.literal
  case some l => exact ⟨l, h.literal l hl, rfl⟩
  case none =>
    have hc : Clause.ofLiterals k.clause.literals = ∅ := congrArg Clause.ofLiterals (h.empty hl)
    rw [Clause.ofLiterals_literals] at hc
    exact absurd (hc ▸ h.mem_clauses) he

theorem repairs (h : k.IsFor cs m) (hm : m.Assigns (clauseVars cs)) (he : ∅ ∉ cs) :
    k.Repairs cs m := by
  have ⟨l, hl, hk⟩ := h.exists_literal he
  have ha : k.apply m = m.flip l.var := by rw [apply, hk]
  have hf := clauseValue_of_mem_unsatisfied hm h.clause
  refine ⟨fun v hv => (hm v).mpr hv, h.mem_clauses, fun hn => he (hn ▸ h.mem_clauses), hf, ?_, ?_⟩
  · exact ha ▸ Model.clauseValue_flip_of_mem hf hl
  · refine ⟨l, hl, hk, fun v => ha ▸ Model.value_flip_ne_iff, fun hr l' hl' => ?_⟩
    exact bestFlip_first ((h.best hr).symm.trans hk) hl'

end Pick.IsFor

-- No variable occurs in both clauses.
def Apart (c d : Clause) : Prop :=
  ∀ v ∈ c.vars, v ∉ d.vars

instance (c d : Clause) : Decidable (Apart c d) :=
  inferInstanceAs (Decidable (∀ v ∈ c.vars.toList, v ∉ d.vars))

instance : Std.Symm Apart where
  symm _ _ h v hd hc := h v hc hd

namespace Pick.Repairs

-- Only the picked clause has the variable that is turned over.
theorem unsatisfied_apply (h : k.Repairs cs m) (ha : cs.Pairwise Apart) :
    unsatisfied cs (k.apply m) = (unsatisfied cs m).filter (· ≠ k.clause) := by
  obtain ⟨l, hl, hk, _⟩ := h.flips
  rw [unsatisfied, unsatisfied, List.filter_filter]
  apply List.filter_congr
  intro c hc
  by_cases he : c = k.clause
  case pos => simp [he, h.repaired]
  case neg =>
    have hv : l.var ∉ c.vars := ha.forall h.mem hc (Ne.symm he) l.var (Clause.var_mem_vars hl)
    have hm : k.apply m = m.flip l.var := by rw [apply, hk]
    simp [he, hm, Model.clauseValue_flip_of_not_mem hv]

theorem length_unsatisfied_lt (h : k.Repairs cs m) (ha : cs.Pairwise Apart) :
    (unsatisfied cs (k.apply m)).length < (unsatisfied cs m).length := by
  rw [h.unsatisfied_apply ha, List.length_filter_lt_length_iff_exists]
  refine ⟨k.clause, List.mem_filter.mpr ⟨h.mem, ?_⟩, by simp⟩
  simp [h.violated]

end Pick.Repairs

theorem run_pick_of_nil (h : unsatisfied cs m = []) : (pick g p cs m).run st = some (none, st) := by
  rw [pick, h]
  rfl

theorem run_walk_of_found (h : (pick g p cs m).run st = some (none, st')) :
    (walk g p cs (left + 1) done m).run st = some (⟨some m, [.modelFoundAfter done]⟩, st') := by
  rw [walk, StateT.run_bind, h]
  rfl

theorem run_walk_of_pick (h : (pick g p cs m).run st = some (some k, st')) :
    (walk g p cs (left + 1) done m).run st = (walk g p cs left (done + 1) (k.apply m)).run st' := by
  rw [walk, StateT.run_bind, h]
  rfl

theorem run_walk_of_none (h : (pick g p cs m).run st = none) :
    (walk g p cs (left + 1) done m).run st = none := by
  rw [walk, StateT.run_bind, h]
  rfl

-- Each flip leaves one clause less to repair.
theorem ensures_walk_found (hm : m.Assigns (clauseVars cs)) (he : ∅ ∉ cs) (ha : cs.Pairwise Apart)
    (hl : (unsatisfied cs m).length ≤ left) :
    Ensures (walk g p cs left done m) fun t => t.value ≠ none := by
  induction left generalizing done m
  case zero =>
    have hn : unsatisfied cs m = [] := List.length_eq_zero_iff.mp (Nat.le_zero.mp hl)
    rw [walk, if_pos (satisfiedCount_eq_length.mpr (unsatisfied_eq_nil.mp hn))]
    exact .pure (Option.some_ne_none m)
  case succ left hi =>
    refine .bind (ensures_pick g p cs m) fun o ho => ?_
    obtain ⟨rfl, _⟩ | ⟨k, rfl, hk⟩ := ho
    case inl => exact .pure (Option.some_ne_none m)
    case inr =>
      have hlt := (hk.repairs hm he).length_unsatisfied_lt ha
      exact hi (hk.assigns_apply hm) (by omega)

-- After so many flips, the walk that starts with the first state of the generator is at the model, and
-- the generator in the second state.
inductive Reaches (g : Generator σ) (s : Sentence) (p : Float) (start : σ) : Nat → Model → σ → Prop
  | start {m : Model} {st : σ} : ∅ ∉ s.clauses →
    (randomModel g (clauseVars s.clauses).toList).run start = some (m, st) → Reaches g s p start 0 m st
  | flip {n : Nat} {m : Model} {st st' : σ} {k : Pick} : Reaches g s p start n m st →
    (pick g p s.clauses m).run st = some (some k, st') → Reaches g s p start (n + 1) (k.apply m) st'

theorem run_of_empty_not_mem (h : ∅ ∉ s.clauses) : run g s maxFlips p =
    randomModel g (clauseVars s.clauses).toList >>= walk g p s.clauses maxFlips 0 := by
  have hn : ¬s.clauses.any Clause.isEmpty := by
    rw [List.any_eq_true]
    rintro ⟨c, hc, he⟩
    exact h (Clause.isEmpty_iff.mp he ▸ hc)
  rw [run, if_neg hn]

namespace Reaches

theorem empty_not_mem (h : Reaches g s p start n m st) : ∅ ∉ s.clauses := by
  induction h
  case start he _ => exact he
  case flip hi => exact hi

theorem assigns (h : Reaches g s p start n m st) : m.Assigns (clauseVars s.clauses) := by
  induction h
  case start hr => exact ensures_randomModel g _ _ _ _ hr
  case flip hk hi => exact (Pick.IsFor.of_run hk).assigns_apply hi

theorem repairs (h : Reaches g s p start n m st)
    (hk : (pick g p s.clauses m).run st = some (some k, st')) : k.Repairs s.clauses m :=
  (Pick.IsFor.of_run hk).repairs h.assigns h.empty_not_mem

-- A run with flips left goes on from where the walk is.
theorem run_eq (h : Reaches g s p start n m st) (hn : n ≤ maxFlips) :
    (run g s maxFlips p).run start = (walk g p s.clauses (maxFlips - n) n m).run st := by
  induction h
  case start he hr =>
    rw [run_of_empty_not_mem he, StateT.run_bind, hr]
    rfl
  case flip n m st st' k _ hk hi =>
    have hl : maxFlips - n = (maxFlips - (n + 1)) + 1 := by omega
    rw [hi (by omega), hl, run_walk_of_pick hk]

end Reaches

theorem run_search_of_isProbability (h : isProbability p) : (search g s maxFlips p).run start =
    ((run g s maxFlips p).run start).map fun r => (.ok r.1, r.2) := by
  rw [search_of_isProbability h, StateT.run_bind, Option.bind_eq_bind, Option.map_eq_bind]
  rfl

theorem ensures_search_found (hp : isProbability p) (he : ∅ ∉ s.clauses)
    (ha : s.clauses.Pairwise Apart) (hl : s.clauses.length ≤ maxFlips) :
    Ensures (search g s maxFlips p) fun r => ∃ t, r = .ok t ∧ t.value ≠ none := by
  rw [search_of_isProbability hp, run_of_empty_not_mem he]
  refine .bind (.bind (ensures_randomModel g _) fun m hm => ?_) fun t ht => .pure ⟨t, rfl, ht⟩
  exact ensures_walk_found hm he ha ((List.length_filter_le _ _).trans hl)

theorem search_repairs_clauses (g : Generator σ) (s : Sentence) (maxFlips : Nat) (p : Float) (start : σ)
    (hp : ∃ q : ℚ, (Decimal.Binary.ofFloat p).value = some q ∧ 0 ≤ q ∧ q ≤ 1) :
    (∀ n m st, Reaches g s p start n m st → n < maxFlips →
      (search g s maxFlips p).run start =
        ((walk g p s.clauses (maxFlips - n) n m).run st).map (fun r => (.ok r.1, r.2)) ∧
      ∀ k st', (pick g p s.clauses m).run st = some (some k, st') → k.Repairs s.clauses m) ∧
    (∅ ∉ s.clauses → s.clauses.Pairwise Apart → s.clauses.length ≤ maxFlips →
      ∀ r stop, (search g s maxFlips p).run start = some (r, stop) →
        ∃ t m, r = .ok t ∧ t.value = some m ∧ m.eval s = some true) := by
  have hp := (isProbability_iff p).mpr hp
  constructor
  case left =>
    intro n m st h hn
    rw [run_search_of_isProbability hp, h.run_eq hn.le]
    exact ⟨rfl, fun k st' => h.repairs⟩
  case right =>
    intro he ha hl r stop hr
    obtain ⟨t, rfl, ht⟩ := ensures_search_found hp he ha hl start r stop hr
    obtain ⟨_, hr, hs⟩ := ensures_search hp start _ stop hr
    cases hr
    obtain ⟨m, hm⟩ := Option.ne_none_iff_exists'.mp ht
    exact ⟨t, m, rfl, hm, (hs m hm).eval_eq_true⟩

-- Of the first clause, turning over `A` makes the second one false. Turning over `C` or `B` satisfies
-- both, and of these `C` is listed first. With the other sentence, the second flip is the last one.
theorem search_repairs_clauses_greedy :
    let g := Script.generator
    let a := Sentence.var ⟨"A"⟩
    let b := Sentence.var ⟨"B"⟩
    let c := Sentence.var ⟨"C"⟩
    let s := Sentence.and (.or a (.or c (.not b))) (.implies a (.var ⟨"D"⟩))
    let start := Script.State.ofWords [0, 0x80000000, 0, 0, 0, 0]
    let m : Model :=
      { entries := [(⟨"A"⟩, false), (⟨"B"⟩, true), (⟨"C"⟩, false), (⟨"D"⟩, false)], sorted := by decide }
    let s' := Sentence.and (.or b (.not a)) (.not c)
    let start' := Script.State.ofWords [0x80000000, 0, 0x80000000, 0, 0, 0, 0]
    (∃ st k st', Reaches g s 0 start 0 m st ∧ (pick g 0 s.clauses m).run st = some (some k, st') ∧
      k.atRandom = false ∧ k.literal = some ⟨⟨"C"⟩, true⟩ ∧ k.Repairs s.clauses m) ∧
    score s.clauses m ⟨⟨"A"⟩, true⟩ = 1 ∧ score s.clauses m ⟨⟨"C"⟩, true⟩ = 2 ∧
    score s.clauses m ⟨⟨"B"⟩, false⟩ = 2 ∧
    ∅ ∉ s'.clauses ∧ s'.clauses.Pairwise Apart ∧ s'.clauses.length = 2 ∧
    ∃ t m' stop, (search g s' 2 0).run start' = some (.ok t, stop) ∧ t.value = some m' ∧
      m'.eval s' = some true := by
  intro g a b c s start m s' start'
  have hp := (isProbability_iff 0).mp (by decide)
  have he : ∅ ∉ s'.clauses := by decide +kernel
  have ha : s'.clauses.Pairwise Apart := by decide +kernel
  have hl : s'.clauses.length = 2 := by decide +kernel
  refine ⟨?_, by decide +kernel, by decide +kernel, by decide +kernel, he, ha, hl, ?_⟩
  case refine_1 =>
    let k : Pick :=
      { clause := .ofLiterals [⟨⟨"A"⟩, true⟩, ⟨⟨"C"⟩, true⟩, ⟨⟨"B"⟩, false⟩]
        atRandom := false
        literal := some ⟨⟨"C"⟩, true⟩ }
    have hr : Reaches g s 0 start 0 m { start with left := [0, 0], drawn := 4 } :=
      .start (by decide +kernel) (by decide +kernel)
    have hk : (pick g 0 s.clauses m).run { start with left := [0, 0], drawn := 4 } =
        some (some k, { start with left := [], drawn := 6 }) := by
      decide +kernel
    have hf := (search_repairs_clauses g s 2 0 start hp).left 0 m _ hr Nat.two_pos
    exact ⟨_, k, _, hr, hk, rfl, rfl, hf.right k _ hk⟩
  case refine_2 =>
    have hr : ((search g s' 2 0).run start').isSome := by decide +kernel
    obtain ⟨⟨r, stop⟩, hr⟩ := Option.isSome_iff_exists.mp hr
    have hf := (search_repairs_clauses g s' 2 0 start' hp).right he ha (Nat.le_of_eq hl)
    obtain ⟨t, m', ht, hm, hv⟩ := hf r stop hr
    exact ⟨t, m', stop, ht ▸ hr, hm, hv⟩

-- Where the shorter walk counts all clauses as satisfied after its last flip, the longer one has none to
-- draw from. Until then, both make the same draws.
theorem run_walk_of_le {left' : Nat} {m' : Model} (hl : left ≤ left')
    (h : (walk g p cs left done m).run st = some (t, stop)) (hm : t.value = some m') :
    ∃ t', (walk g p cs left' done m).run st = some (t', stop) ∧ t'.value = some m' ∧
      (t'.events = t.events ∨
        t.events = [.modelFoundLast] ∧ t'.events = [.modelFoundAfter (done + left)]) := by
  induction left generalizing left' done m st
  case zero =>
    rw [walk] at h
    split at h
    case isFalse =>
      cases h
      cases hm
    case isTrue hc =>
      cases h
      cases left'
      case zero => exact ⟨_, by rw [walk, if_pos hc]; rfl, hm, .inl rfl⟩
      case succ =>
        have hn : unsatisfied cs m = [] := unsatisfied_eq_nil.mpr (satisfiedCount_eq_length.mp hc)
        exact ⟨_, run_walk_of_found (run_pick_of_nil hn), hm, .inr ⟨rfl, rfl⟩⟩
  case succ left hi =>
    obtain ⟨left', rfl⟩ := Nat.exists_eq_add_of_le' (Nat.lt_of_lt_of_le left.succ_pos hl)
    cases hp : (pick g p cs m).run st
    case none => cases h.symm.trans (run_walk_of_none hp)
    case some r =>
      obtain ⟨o, st'⟩ := r
      cases o
      case none =>
        cases h.symm.trans (run_walk_of_found hp)
        exact ⟨_, run_walk_of_found hp, hm, .inl rfl⟩
      case some k =>
        rw [run_walk_of_pick hp] at h ⊢
        obtain ⟨t', hr, hv, he⟩ := hi (Nat.le_of_succ_le_succ hl) h
        rw [Nat.add_right_comm, Nat.add_assoc] at he
        exact ⟨t', hr, hv, he⟩

theorem run_search_eq_ok_iff : (search g s n p).run start = some (.ok t, stop) ↔
    isProbability p ∧ (run g s n p).run start = some (t, stop) := by
  by_cases hp : isProbability p
  case pos => simp [run_search_of_isProbability, hp]
  case neg =>
    rw [search_of_not_isProbability hp]
    exact iff_of_false (fun h => by cases h) fun h => hp h.left

theorem search_more_flips (g : Generator σ) (s : Sentence) (p : Float) (start stop : σ) {n n' : Nat}
    (hn : n ≤ n') {t : Traced (Option Model)} {m : Model}
    (h : (search g s n p).run start = some (.ok t, stop)) (hm : t.value = some m) :
    ∃ t', (search g s n' p).run start = some (.ok t', stop) ∧ t'.value = some m ∧
      (t'.events = t.events ∨ t.events = [.modelFoundLast] ∧ t'.events = [.modelFoundAfter n]) := by
  obtain ⟨hp, h⟩ := run_search_eq_ok_iff.mp h
  by_cases he : ∅ ∈ s.clauses
  case pos =>
    rw [run_of_empty_mem he] at h
    cases h
    cases hm
  case neg =>
    rw [run_of_empty_not_mem he, StateT.run_bind, Option.bind_eq_bind, Option.bind_eq_some_iff] at h
    obtain ⟨⟨m₀, st⟩, hr, hw⟩ := h
    obtain ⟨t', hw', hv, hl⟩ := run_walk_of_le hn hw hm
    refine ⟨t', run_search_eq_ok_iff.mpr ⟨hp, ?_⟩, hv, Nat.zero_add n ▸ hl⟩
    rw [run_of_empty_not_mem he, StateT.run_bind, hr]
    exact hw'

-- The model is complete after the second flip, which is the last one of the shorter walk.
theorem search_more_flips_last :
    let g := Script.generator
    let s := Sentence.and (.var ⟨"A"⟩) (.implies (.var ⟨"A"⟩) (.var ⟨"B"⟩))
    let start := Script.State.ofWords [0]
    let m : Model := { entries := [(⟨"A"⟩, true), (⟨"B"⟩, true)], sorted := by decide }
    ∃ t t' stop, (search g s 2 0.5).run start = some (.ok t, stop) ∧ t.value = some m ∧
      t.events = [.modelFoundLast] ∧ (search g s 9 0.5).run start = some (.ok t', stop) ∧
      t'.value = some m := by
  intro g s start m
  have hr : ((search g s 2 0.5).run start).map (·.1.toOption.map fun t => (t.value, t.events)) =
      some (some (some m, [.modelFoundLast])) := by
    decide +kernel
  obtain ⟨⟨r, stop⟩, hr, he⟩ := Option.map_eq_some_iff.mp hr
  cases r
  case error => cases he
  case ok t =>
    have ⟨hm, hl⟩ := Prod.mk.inj (Option.some.inj he)
    have ⟨t', ht, hm', _⟩ := search_more_flips g s 0.5 start stop (by decide : 2 ≤ 9) hr hm
    exact ⟨t, t', stop, hr, hm, hl, ht, hm'⟩

end WalkSat
end Sentential
