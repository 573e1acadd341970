import Sentential.Proofs.NormalForm
import Sentential.Proofs.Resolution
import Sentential.Saturation

namespace Sentential.Saturation

-- The clauses that can be obtained by resolving, over and over.
inductive Derivable (cs : List Clause) : Clause → Prop
  | given {c} : c ∈ cs → Derivable cs c
  | resolve {c d r} : Derivable cs c → Derivable cs d → c.resolve d = .clause r → Derivable cs r

theorem Derivable.satisfies {cs : List Clause} {c : Clause} {ν : Valuation} (h : Derivable cs c)
    (hs : ∀ d ∈ cs, ν.Satisfies d) : ν.Satisfies c := by
  induction h
  case given hc => exact hs _ hc
  case resolve hr hc hd =>
    have ⟨hr, _⟩ := Clause.resolve_eq_clause.mp hr
    exact Valuation.satisfies_resolvent hr hc hd

-- In a round, `right` is pending and `left` comes before it.
inductive Meets (left right : Clause) : List Clause → List Clause → Prop
  | here {settled pending} : left ∈ settled → Meets left right settled (right :: pending)
  | later {settled pending c} :
    Meets left right (settled ++ [c]) pending → Meets left right settled (c :: pending)

namespace Meets

variable {left right c d : Clause} {settled pending : List Clause}

-- The pairs of a round are those of its first pending clause and those of what is left then.
theorem cons_iff : Meets left right settled (c :: pending) ↔
    (left ∈ settled ∧ right = c) ∨ Meets left right (settled ++ [c]) pending := by
  constructor
  case mp =>
    intro h
    cases h
    case here hl => exact .inl ⟨hl, rfl⟩
    case later h => exact .inr h
  case mpr =>
    intro h
    cases h
    case inl h => exact h.right ▸ .here h.left
    case inr h => exact .later h

theorem mem (h : Meets left right settled pending) :
    left ∈ settled ++ pending ∧ right ∈ settled ++ pending := by
  induction h
  case here hl => simp [hl]
  case later hi => simpa using hi

theorem total (hc : c ∈ settled ++ pending) (hd : d ∈ pending) (hne : c ≠ d) :
    Meets c d settled pending ∨ Meets d c settled pending := by
  induction pending generalizing settled c d
  case nil => exact nomatch hd
  case cons p ps hi =>
    cases List.mem_cons.mp hd
    case inr hd =>
      have hc : c ∈ (settled ++ [p]) ++ ps := by simpa using hc
      exact (hi hc hd hne).imp .later .later
    case inl hd =>
      cases List.mem_append.mp hc
      case inl hc => exact .inl (hd ▸ .here hc)
      case inr hc =>
        have hc : c ∈ ps := (List.mem_cons.mp hc).resolve_left (hd ▸ hne)
        have hd : d ∈ (settled ++ [p]) ++ ps := by simp [hd]
        exact (hi hd hc hne.symm).symm.imp .later .later

end Meets

-- What is to come of resolving the pairs of clauses of a relation, with `fresh` taken up before: what
-- they yield and is not known is taken up, unless one of them yields the empty clause.
def Gathers (known fresh : List Clause) (Pair : Clause → Clause → Prop) :
    Except Refutation (List Clause) → Prop
  | .error e => Pair e.left e.right ∧ e.left.resolve e.right = .clause ∅
  | .ok fresh' =>
    (∀ left right, Pair left right → left.resolve right ≠ .clause ∅) ∧
      ∀ c, c ∈ fresh' ↔
        c ∈ fresh ∨ (c ∉ known ∧ ∃ left right, Pair left right ∧ left.resolve right = .clause c)

variable {known settled pending fresh : List Clause} {left right c d : Clause}

namespace Gathers

variable {fresh' : List Clause} {Pair Pair' : Clause → Clause → Prop}
  {result : Except Refutation (List Clause)}

theorem congr (h : Gathers known fresh Pair result)
    (hp : ∀ left right, Pair left right ↔ Pair' left right) : Gathers known fresh Pair' result := by
  have : Pair = Pair' := funext₂ fun left right => propext (hp left right)
  exact this ▸ h

theorem error {e : Refutation} (h : Gathers known fresh Pair (.error e)) :
    Gathers known fresh (fun left right => Pair left right ∨ Pair' left right) (.error e) :=
  h.imp_left .inl

-- Resolving the pairs of two relations one after the other gathers what both yield.
theorem trans (h : Gathers known fresh Pair (.ok fresh')) (h' : Gathers known fresh' Pair' result) :
    Gathers known fresh (fun left right => Pair left right ∨ Pair' left right) result := by
  cases result
  case error e => exact h'.imp_left .inr
  case ok fresh'' =>
    have ⟨hn, hm⟩ := h
    have ⟨hn', hm'⟩ := h'
    refine ⟨fun left right hp => hp.elim (hn left right) (hn' left right), fun c => ?_⟩
    rw [hm' c, hm c, or_assoc, ← and_or_left]
    simp only [or_and_right, exists_or]

end Gathers

theorem mem_takeUp : c ∈ takeUp known fresh d ↔ c ∈ fresh ∨ (c ∉ known ∧ c = d) := by
  unfold takeUp
  split
  case isTrue h =>
    constructor
    case mp => exact .inl
    case mpr =>
      intro hc
      cases hc
      case inl hc => exact hc
      case inr hc =>
        have ⟨hk, he⟩ := hc
        exact he ▸ h.resolve_left (he ▸ hk)
  case isFalse h =>
    have hk : d ∉ known := fun hk => h (.inl hk)
    rw [List.mem_append, List.mem_singleton]
    exact or_congr_right ⟨fun hc => ⟨hc ▸ hk, hc⟩, And.right⟩

-- The next two are about a single pair, which may yield a clause or nothing.

theorem gathers_takeUp (hr : left.resolve right = .clause c) (he : ¬c.isEmpty) :
    Gathers known fresh (fun l r => l = left ∧ r = right) (.ok (takeUp known fresh c)) := by
  constructor
  case left =>
    rintro l r ⟨hl, hr'⟩ hc
    rw [hl, hr', hr, Resolvent.clause.injEq] at hc
    exact he (Clause.isEmpty_iff.mpr hc)
  case right =>
    intro d
    simp only [mem_takeUp, and_assoc, exists_and_left, exists_eq_left, hr, Resolvent.clause.injEq,
      @eq_comm _ c d]

theorem gathers_nothing (hr : ∀ c, left.resolve right ≠ .clause c) :
    Gathers known fresh (fun l r => l = left ∧ r = right) (.ok fresh) := by
  constructor
  case left =>
    rintro l r ⟨hl, hr'⟩
    exact hl ▸ hr' ▸ hr ∅
  case right =>
    intro d
    simp [hr]

theorem resolveWith_gathers (known : List Clause) (right : Clause) (lefts fresh : List Clause) :
    Gathers known fresh (fun l r => l ∈ lefts ∧ r = right) (resolveWith known right lefts fresh) := by
  induction lefts generalizing fresh
  case nil => exact ⟨by simp, by simp⟩
  case cons left lefts hi =>
    have hp : ∀ l r, (l = left ∧ r = right ∨ l ∈ lefts ∧ r = right) ↔ l ∈ left :: lefts ∧ r = right := by
      intro l r
      rw [List.mem_cons, or_and_right]
    rw [resolveWith]
    split
    case h_1 c hc =>
      split
      case isTrue he => exact ⟨⟨List.mem_cons_self, rfl⟩, Clause.isEmpty_iff.mp he ▸ hc⟩
      case isFalse he => exact (gathers_takeUp hc he).trans (hi _) |>.congr hp
    case h_2 hn => exact (gathers_nothing hn).trans (hi _) |>.congr hp

theorem sweep_gathers (known settled pending fresh : List Clause) :
    Gathers known fresh (Meets · · settled pending) (sweep known settled pending fresh) := by
  induction pending generalizing settled fresh
  case nil =>
    have hn : ∀ left right, ¬Meets left right settled [] := fun _ _ h => nomatch h
    exact ⟨fun left right h => absurd h (hn left right), by simp [hn]⟩
  case cons p ps hi =>
    have h := resolveWith_gathers known p settled fresh
    rw [sweep]
    split
    case h_1 e he => exact (he ▸ h).error |>.congr fun _ _ => Meets.cons_iff.symm
    case h_2 fresh' he => exact (he ▸ h).trans (hi _ _) |>.congr fun _ _ => Meets.cons_iff.symm

theorem State.sweep_gathers {scope : VarSet} (s : State scope) :
    Gathers s.clauses [] (Meets · · s.settled s.pending) s.sweep :=
  Saturation.sweep_gathers s.clauses s.settled s.pending []

-- What holds of a stage of the saturation of `cs`, whatever the round.
structure State.Invariant {scope : VarSet} (cs : List Clause) (s : State scope) : Prop where
  given : ∀ c ∈ cs, c ∈ s.clauses
  derivable : ∀ c ∈ s.clauses, Derivable cs c
  resolved : ∀ c ∈ s.settled, ∀ d ∈ s.settled, ∀ r, c.resolve d = .clause r → r ∈ s.clauses
  nonempty : ∅ ∉ s.clauses

namespace State.Invariant

variable {scope : VarSet} {cs : List Clause} {s : State scope}

theorem start (h : ∅ ∉ cs) : (State.start cs).Invariant cs where
  given _ hc := hc
  derivable _ hc := .given hc
  resolved _ hc := nomatch hc
  nonempty := h

-- Two known clauses were both settled before, or meet in the round in one order or the other.
theorem resolved_of_sweep (hs : s.Invariant cs) (h : s.sweep = .ok fresh) {c d r : Clause}
    (hc : c ∈ s.clauses) (hd : d ∈ s.clauses) (hr : c.resolve d = .clause r) :
    r ∈ s.clauses ++ fresh := by
  have ⟨_, hm⟩ := h ▸ s.sweep_gathers
  have hfresh : ∀ left right, Meets left right s.settled s.pending → left.resolve right = .clause r →
      r ∈ s.clauses ++ fresh := by
    intro left right hp hr
    by_cases hk : r ∈ s.clauses
    case pos => exact List.mem_append_left _ hk
    case neg => exact List.mem_append_right _ <| (hm r).mpr <| .inr ⟨hk, left, right, hp, hr⟩
  have hmeet : ∀ c d, c ∈ s.clauses → d ∈ s.pending → c.resolve d = .clause r →
      r ∈ s.clauses ++ fresh := by
    intro c d hc hd hr
    have hne : c ≠ d := fun e => Clause.resolve_self d r (e ▸ hr)
    cases Meets.total hc hd hne
    case inl hp => exact hfresh c d hp hr
    case inr hp => exact hfresh d c hp (Clause.resolve_comm.mp hr)
  cases List.mem_append.mp hd
  case inr hd => exact hmeet c d hc hd hr
  case inl hd =>
    cases List.mem_append.mp hc
    case inr hc => exact hmeet d c (List.mem_append_left _ hd) hc (Clause.resolve_comm.mp hr)
    case inl hc => exact List.mem_append_left _ <| hs.resolved c hc d hd r hr

theorem derivable_of_sweep (hs : s.Invariant cs) (h : s.sweep = .ok fresh) {c : Clause}
    (hc : c ∈ fresh) : Derivable cs c ∧ c ≠ ∅ := by
  have ⟨hn, hm⟩ := h ▸ s.sweep_gathers
  have hc := (hm c).mp hc
  have ⟨_, left, right, hp, hr⟩ := hc.resolve_left List.not_mem_nil
  have ⟨hl, hr'⟩ := hp.mem
  refine ⟨.resolve (hs.derivable left hl) (hs.derivable right hr') hr, ?_⟩
  intro he
  exact hn left right hp (he ▸ hr)

theorem advance (hs : s.Invariant cs) (h : s.sweep = .ok fresh) :
    (s.advance fresh h).Invariant cs where
  given c hc := List.mem_append_left _ (hs.given c hc)
  derivable c hc :=
    (List.mem_append.mp hc).elim (hs.derivable c) (fun hc => (hs.derivable_of_sweep h hc).left)
  resolved _ hc _ hd _ hr := hs.resolved_of_sweep h hc hd hr
  nonempty hc :=
    (List.mem_append.mp hc).elim hs.nonempty (fun hc => (hs.derivable_of_sweep h hc).right rfl)

theorem refuted {e : Refutation} (hs : s.Invariant cs) (h : s.sweep = .error e) : Derivable cs ∅ := by
  have ⟨hp, hr⟩ := h ▸ s.sweep_gathers
  have ⟨hl, hr'⟩ := hp.mem
  exact .resolve (hs.derivable e.left hl) (hs.derivable e.right hr') hr

theorem saturated (hs : s.Invariant cs) (h : s.sweep = .ok []) : Saturated s.clauses := by
  intro c hc d hd r hr
  have := hs.resolved_of_sweep h hc hd hr
  rwa [List.append_nil] at this

end State.Invariant

-- What an outcome says about the clauses that saturation began with.
def Outcome.Justified (cs : List Clause) : Outcome → Prop
  | refuted => Derivable cs ∅
  | saturated ds => Saturated ds ∧ ∅ ∉ ds ∧ (∀ c ∈ cs, c ∈ ds) ∧ (∀ c ∈ ds, Derivable cs c)

theorem run_justified {scope : VarSet} {cs : List Clause} {s : State scope} (round : Nat)
    (hs : s.Invariant cs) : (run round s).value.Justified cs := by
  induction round, s using run.induct
  case case1 round s hi =>
    rw [run, Traced.value_bind]
    split
    case h_1 e h => exact hs.refuted h
    case h_2 fresh h =>
      split
      case isTrue hf =>
        cases hf
        exact ⟨hs.saturated h, hs.nonempty, hs.given, hs.derivable⟩
      case isFalse hf => exact hi fresh h hf (hs.advance h)

theorem saturate_justified (cs : List Clause) : (saturate cs).value.Justified cs := by
  unfold saturate
  split
  case isTrue h =>
    have ⟨c, hc, he⟩ := List.any_eq_true.mp h
    exact .given (Clause.isEmpty_iff.mp he ▸ hc)
  case isFalse h =>
    apply run_justified
    apply State.Invariant.start
    exact fun he => h <| List.any_eq_true.mpr ⟨∅, he, rfl⟩

theorem Outcome.Justified.isRefuted_iff {cs : List Clause} {o : Outcome} (h : o.Justified cs) :
    o.isRefuted ↔ ¬∃ ν : Valuation, ∀ c ∈ cs, ν.Satisfies c := by
  cases o
  case refuted =>
    refine iff_of_true rfl ?_
    intro ⟨ν, hν⟩
    exact ν.not_satisfies_empty (h.satisfies hν)
  case saturated ds =>
    have ⟨hs, he, hg, _⟩ := h
    have ⟨ν, hν⟩ := hs.satisfiable he
    exact iff_of_false Bool.false_ne_true (· ⟨ν, fun c hc => hν c (hg c hc)⟩)

theorem unsatisfiable_iff_not_exists (cs : List Clause) :
    (unsatisfiable cs).value = true ↔ ¬∃ ν : Valuation, ∀ c ∈ cs, ν.Satisfies c :=
  (saturate_justified cs).isRefuted_iff

end Sentential.Saturation
