import Sentential.Proofs.Probability
import Sentential.Settings.Basic

namespace Sentential.Settings

variable {s s' : Settings} {u v : Update} {us : List Update}

-- The settings with the values of the update, valid or not.
def update (s : Settings) (u : Update) : Settings where
  maxFlips := u.maxFlips.getD s.maxFlips
  probability := u.probability.getD s.probability
  seed := u.seed.or s.seed

theorem update_merge (s : Settings) (u v : Update) : s.update (u.merge v) = (s.update u).update v := by
  obtain ⟨n, p, x⟩ := v
  cases n <;> cases p <;> cases x <;> rfl

namespace Update

-- The update sets no probability, or one that is.
def IsValid (u : Update) : Prop :=
  ∀ p, u.probability = some p → isProbability p

theorem isValid_empty : IsValid {} := by
  rintro _ ⟨⟩

theorem IsValid.merge (hu : u.IsValid) (hv : v.IsValid) : (u.merge v).IsValid := by
  intro p hp
  rw [Update.merge] at hp
  cases h : v.probability
  case none => exact hu p (by simpa [h] using hp)
  case some q => exact hv p (by simpa [h] using hp)

-- The change is made as a whole or not at all.
theorem run_change_cases (u : Update) (s : Settings) :
    u.IsValid ∧ u.change.run s = .ok () (s.update u) ∨
      ∃ p, u.probability = some p ∧ ¬isProbability p ∧ u.change.run s = .error (.notProbability p) s := by
  obtain ⟨n, p, x⟩ := u
  cases p
  case none => exact .inl ⟨by rintro _ ⟨⟩, by cases n <;> cases x <;> rfl⟩
  case some p =>
    by_cases hp : isProbability p
    case pos =>
      have hc : checkProbability p = .ok () := if_pos hp
      refine .inl ⟨fun q hq => Option.some.inj hq ▸ hp, ?_⟩
      simp only [change, Option.forM, hc]
      cases n <;> cases x <;> rfl
    case neg =>
      have hc : checkProbability p = .error (.notProbability p) := if_neg hp
      refine .inr ⟨p, rfl, hp, ?_⟩
      simp only [change, Option.forM, hc]
      rfl

theorem run_change_eq_ok_iff : u.change.run s = .ok () s' ↔ u.IsValid ∧ s' = s.update u := by
  obtain ⟨hv, hr⟩ | ⟨p, hp, hn, hr⟩ := run_change_cases u s
  · simp [hr, hv, eq_comm]
  · simp only [hr, reduceCtorEq, false_iff]
    exact fun h => hn (h.left p hp)

-- A parameter of which the later update counts is set by the last of the updates that set it.
theorem foldl_merge_eq {α : Type} {f : Update → Option α}
    (hf : ∀ u v : Update, f (u.merge v) = (f v).or (f u)) (us : List Update) (u : Update) :
    f (us.foldl merge u) = (us.filterMap f).getLast?.or (f u) := by
  induction us generalizing u
  case nil => rfl
  case cons v vs hi =>
    rw [List.foldl_cons, hi, hf]
    cases h : f v
    case none => simp [h]
    case some x => simp [h, List.getLast?_cons]

theorem foldl_merge (us : List Update) : us.foldl merge {} = {
    maxFlips := (us.filterMap (·.maxFlips)).getLast?
    probability := (us.filterMap (·.probability)).getLast?
    seed := (us.filterMap (·.seed)).getLast? } := by
  have hn := foldl_merge_eq (f := (·.maxFlips)) (fun u v => by cases h : v.maxFlips <;> simp [merge, h]) us {}
  have hp := foldl_merge_eq (f := (·.probability))
    (fun u v => by cases h : v.probability <;> simp [merge, h]) us {}
  have hx := foldl_merge_eq (f := (·.seed)) (fun u v => by cases h : v.seed <;> simp [merge, h]) us {}
  rw [Option.or_none] at hn hp hx
  rw [← hn, ← hp, ← hx]

-- What was merged so far, if it is valid, may as well have been applied already.
theorem run_change_foldl_merge (hu : u.IsValid) (h : (forM us change).run (s.update u) = .ok () s') :
    (us.foldl merge u).change.run s = .ok () s' := by
  induction us generalizing u
  case nil =>
    cases h
    exact run_change_eq_ok_iff.mpr ⟨hu, rfl⟩
  case cons v vs hi =>
    rw [List.forM_cons, EStateM.run_bind] at h
    obtain ⟨hv, hr⟩ | ⟨p, _, _, hr⟩ := run_change_cases v (s.update u)
    · rw [hr, ← update_merge] at h
      exact hi (hu.merge hv) h
    · rw [hr] at h
      cases h

end Update

theorem apply_eq_ok_iff : s.apply u = .ok s' ↔ u.IsValid ∧ s' = s.update u := by
  rw [← Update.run_change_eq_ok_iff, apply]
  cases u.change.run s <;> simp

theorem isProbability_update (hp : isProbability s.probability) (hu : u.IsValid) :
    isProbability (s.update u).probability := by
  rw [update]
  cases h : u.probability
  case none => exact hp
  case some p => exact hu p h

theorem isProbability_of_apply (h : s.apply u = .ok s') (hp : isProbability s.probability) :
    isProbability s'.probability := by
  obtain ⟨hu, rfl⟩ := apply_eq_ok_iff.mp h
  exact isProbability_update hp hu

-- Settings, and the update that is to be applied to them.
structure Draft where
  settings : Settings := {}
  pending : Update := {}

namespace Draft

inductive Step where
  -- Merges an update into the one that is pending.
  | merge (u : Update)
  -- Drops what is pending.
  | reset
  -- Applies what is pending, which stays pending.
  | apply

-- The draft after a step, be it a success or not.
def after (d : Draft) : Step → Draft
  | .merge u => { d with pending := d.pending.merge u }
  | .reset => { d with pending := {} }
  | .apply =>
    match d.pending.change.run d.settings with
    | .ok _ s | .error _ s => { d with settings := s }

theorem isProbability_after (d : Draft) (step : Step) (h : isProbability d.settings.probability) :
    isProbability (d.after step).settings.probability := by
  cases step
  case merge | reset => exact h
  case apply =>
    rw [after]
    obtain ⟨hv, hr⟩ | ⟨p, _, _, hr⟩ := d.pending.run_change_cases d.settings
    · simpa only [hr] using isProbability_update h hv
    · simpa only [hr] using h

theorem isProbability_foldl_after (steps : List Step) (d : Draft) (h : isProbability d.settings.probability) :
    isProbability (steps.foldl after d).settings.probability := by
  induction steps generalizing d
  case nil => exact h
  case cons step steps hi => exact hi (d.after step) (d.isProbability_after step h)

end Draft

-- Of updates that are merged and applied once, the last values count, if the last probability is one, and
-- else nothing is changed. Where applying the updates one by one is a success, it comes to the same. From
-- the defaults on, the settings have a probability after whatever steps.
theorem merged_updates_last_counts (s : Settings) (us : List Update) :
    let inRange (p : Float) : Prop := ∃ q : ℚ, (Decimal.Binary.ofFloat p).value = some q ∧ 0 ≤ q ∧ q ≤ 1
    let result := (us.foldl Update.merge {}).change.run s
    let lastProbability := (us.filterMap (·.probability)).getLast?
    ((∃ s', result = .ok () s') ↔ ∀ p, lastProbability = some p → inRange p) ∧
    (∀ s', result = .ok () s' →
      s'.maxFlips = (us.filterMap (·.maxFlips)).getLast?.getD s.maxFlips ∧
      s'.probability = lastProbability.getD s.probability ∧
      s'.seed = (us.filterMap (·.seed)).getLast?.or s.seed) ∧
    (∀ e s', result = .error e s' → s' = s ∧ ∃ p, lastProbability = some p ∧ e = .notProbability p) ∧
    (∀ s', (forM us Update.change).run s = .ok () s' → result = .ok () s') ∧
    ∀ steps : List Draft.Step, inRange (steps.foldl Draft.after {}).settings.probability := by
  intro inRange result lastProbability
  have hm : us.foldl Update.merge {} =
    ⟨(us.filterMap (·.maxFlips)).getLast?, lastProbability, (us.filterMap (·.seed)).getLast?⟩ :=
    Update.foldl_merge us
  have hv : (us.foldl Update.merge {}).IsValid ↔ ∀ p, lastProbability = some p → inRange p := by
    simp only [Update.IsValid, hm, isProbability_iff, inRange]
  refine ⟨?succeeds, fun s' h => ?values, fun e s' h => ?fails, fun s' h => ?oneByOne, fun steps => ?steps⟩
  case succeeds =>
    rw [← hv]
    simp [result, Update.run_change_eq_ok_iff]
  case values =>
    obtain ⟨_, rfl⟩ := Update.run_change_eq_ok_iff.mp h
    rw [hm]
    exact ⟨rfl, rfl, rfl⟩
  case fails =>
    obtain ⟨_, hr⟩ | ⟨p, hp, _, hr⟩ := Update.run_change_cases (us.foldl Update.merge {}) s
    · cases hr.symm.trans h
    · cases hr.symm.trans h
      rw [hm] at hp
      exact ⟨rfl, p, hp, rfl⟩
  case oneByOne => exact Update.run_change_foldl_merge Update.isValid_empty h
  case steps => exact (isProbability_iff _).mp (Draft.isProbability_foldl_after steps {} (by decide))

-- A number that is no probability is overridden before it counts. Applied by itself, its update changes
-- nothing, and the others come to the same in either way.
theorem merged_updates_last_counts_overridden :
    let u : Update := { maxFlips := some 5, probability := some 1.5 }
    let us : List Update := [{ probability := some 0.25, seed := some 3 }, { maxFlips := some 7 }]
    let s : Settings := { seed := some 1 }
    let t : Settings := { maxFlips := 7, probability := 0.25, seed := some 3 }
    ((u :: us).foldl Update.merge {}).change.run s = .ok () t ∧
      ([u].foldl Update.merge {}).change.run s = .error (.notProbability 1.5) s ∧
      (forM us Update.change).run s = .ok () t ∧ (us.foldl Update.merge {}).change.run s = .ok () t := by
  intro u us s t
  have hp : ∃ q : ℚ, (Decimal.Binary.ofFloat 0.25).value = some q ∧ 0 ≤ q ∧ q ≤ 1 :=
    (isProbability_iff 0.25).mp (by decide)
  have hn : ¬∃ q : ℚ, (Decimal.Binary.ofFloat 1.5).value = some q ∧ 0 ≤ q ∧ q ≤ 1 :=
    mt (isProbability_iff 1.5).mpr (by decide)
  have ⟨ha, hv, _⟩ := merged_updates_last_counts s (u :: us)
  have ⟨hb, _, hf, _⟩ := merged_updates_last_counts s [u]
  have ⟨_, _, _, ho, _⟩ := merged_updates_last_counts s us
  have h₁ : (forM us Update.change).run s = .ok () t := by rfl
  refine ⟨?_, ?_, h₁, ho t h₁⟩
  · obtain ⟨⟨n, p, x⟩, h⟩ := ha.mpr fun p hl => Option.some.inj hl ▸ hp
    have ⟨hn, hp, hx⟩ := hv _ h
    cases hn
    cases hp
    cases hx
    exact h
  · cases h : ([u].foldl Update.merge {}).change.run s
    case ok s' => exact absurd (hb.mp ⟨s', h⟩ 1.5 rfl) hn
    case error e s' =>
      obtain ⟨rfl, p, hl, rfl⟩ := hf e s' h
      cases hl
      rfl

end Sentential.Settings
