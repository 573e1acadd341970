import Sentential.Keyed

namespace Sentential

-- A finite set of variables, listed in name order.
structure VarSet where
  toList : List Var
  sorted : toList.Pairwise (· < ·) := by simp
deriving DecidableEq, Repr

namespace VarSet

instance : Membership Var VarSet where
  mem s v := v ∈ s.toList

instance (v : Var) (s : VarSet) : Decidable (v ∈ s) :=
  inferInstanceAs (Decidable (v ∈ s.toList))

instance : EmptyCollection VarSet where
  emptyCollection := { toList := [] }

instance : Inhabited VarSet where
  default := ∅

theorem mem_def {v : Var} {s : VarSet} : v ∈ s ↔ v ∈ s.toList :=
  Iff.rfl

@[simp]
theorem mem_toList {v : Var} {s : VarSet} : v ∈ s.toList ↔ v ∈ s :=
  Iff.rfl

@[simp]
theorem not_mem_empty (v : Var) : v ∉ (∅ : VarSet) :=
  List.not_mem_nil

theorem ext {s t : VarSet} (h : ∀ v, v ∈ s ↔ v ∈ t) : s = t := by
  obtain ⟨xs, hx⟩ := s
  obtain ⟨ys, hy⟩ := t
  have hp : xs.Perm ys := (List.perm_ext_iff_of_nodup (hx.imp Var.ne_of_lt) (hy.imp Var.ne_of_lt)).mpr h
  cases hp.eq_of_pairwise (fun _ _ _ _ h h' => absurd h' (Var.lt_asymm h)) hx hy
  rfl

def size (s : VarSet) : Nat :=
  s.toList.length

def isEmpty (s : VarSet) : Bool :=
  s.toList.isEmpty

def insert (s : VarSet) (v : Var) : VarSet where
  toList := Keyed.place (fun w => w) v s.toList
  sorted := Keyed.place_sorted s.sorted

@[simp]
theorem mem_insert {s : VarSet} {u v : Var} : u ∈ s.insert v ↔ u = v ∨ u ∈ s := by
  have h : u ∈ (s.insert v).toList.map (fun w => w) ↔ u = v ∨ u ∈ s.toList.map (fun w => w) :=
    Keyed.mem_keys_place
  rwa [List.map_id', List.map_id'] at h

def ofList (vs : List Var) : VarSet :=
  vs.foldl insert ∅

-- Puts `v` at its place in a strictly increasing list, and lets `next` deal with what follows.
def weave (v : Var) (next : List Var → List Var) : List Var → List Var
  | [] => v :: next []
  | w :: ws =>
    if w < v then w :: weave v next ws
    else if v = w then v :: next ws
    else v :: next (w :: ws)

-- Merges strictly increasing lists.
def merge : List Var → List Var → List Var
  | [], ws => ws
  | v :: vs, ws => weave v (merge vs) ws

theorem mem_weave {u v : Var} {vs ws : List Var} {next : List Var → List Var}
    (hn : ∀ ws, u ∈ next ws ↔ u ∈ vs ∨ u ∈ ws) :
    u ∈ weave v next ws ↔ u = v ∨ u ∈ vs ∨ u ∈ ws := by
  induction ws
  case nil => simp [weave, hn]
  case cons w ws ih =>
    rw [weave]
    split
    · simp only [List.mem_cons, ih]
      grind
    · split
      · simp only [List.mem_cons, hn]
        grind
      · simp only [List.mem_cons, hn]

theorem mem_merge {u : Var} {vs ws : List Var} : u ∈ merge vs ws ↔ u ∈ vs ∨ u ∈ ws := by
  induction vs generalizing ws
  case nil => simp [merge]
  case cons v vs ih => rw [merge, mem_weave fun _ => ih, List.mem_cons, or_assoc]

theorem merge_sorted {vs ws : List Var} (hv : vs.Pairwise (· < ·)) (hw : ws.Pairwise (· < ·)) :
    (merge vs ws).Pairwise (· < ·) := by
  induction vs generalizing ws
  case nil => exact hw
  case cons v vs ih =>
    rw [List.pairwise_cons] at hv
    rw [merge]
    induction ws
    case nil =>
      refine List.pairwise_cons.mpr ⟨fun u hu => ?_, ih hv.2 hw⟩
      simpa using (mem_merge.mp hu).imp_left (hv.1 u)
    case cons w ws ihw =>
      have hw' := List.pairwise_cons.mp hw
      rw [weave]
      split
      case isTrue hlt =>
        refine List.pairwise_cons.mpr ⟨fun u hu => ?_, ihw hw'.2⟩
        obtain rfl | hu | hu := (mem_weave fun _ => mem_merge).mp hu
        · exact hlt
        · exact Var.lt_trans hlt (hv.1 u hu)
        · exact hw'.1 u hu
      case isFalse hge =>
        split
        case isTrue heq =>
          refine List.pairwise_cons.mpr ⟨fun u hu => ?_, ih hv.2 hw'.2⟩
          exact (mem_merge.mp hu).elim (hv.1 u) (heq ▸ hw'.1 u)
        case isFalse hne =>
          have hlt : v < w := (Var.lt_or_gt_of_ne hne).resolve_right hge
          refine List.pairwise_cons.mpr ⟨fun u hu => ?_, ih hv.2 hw⟩
          obtain hu | hu := mem_merge.mp hu
          · exact hv.1 u hu
          · exact (List.mem_cons.mp hu).elim (· ▸ hlt) (fun m => Var.lt_trans hlt (hw'.1 u m))

def union (s t : VarSet) : VarSet where
  toList := merge s.toList t.toList
  sorted := merge_sorted s.sorted t.sorted

@[simp]
theorem mem_union {s t : VarSet} {u : Var} : u ∈ s.union t ↔ u ∈ s ∨ u ∈ t :=
  mem_merge

theorem forall_mem_union {s t : VarSet} {p : Var → Prop} :
    (∀ v ∈ s.union t, p v) ↔ (∀ v ∈ s, p v) ∧ ∀ v ∈ t, p v := by
  simp only [mem_union, or_imp, forall_and]

def filter (s : VarSet) (p : Var → Bool) : VarSet where
  toList := s.toList.filter p
  sorted := s.sorted.filter p

@[simp]
theorem mem_filter {s : VarSet} {p : Var → Bool} {u : Var} : u ∈ s.filter p ↔ u ∈ s ∧ p u :=
  List.mem_filter

def erase (s : VarSet) (v : Var) : VarSet :=
  s.filter (· ≠ v)

@[simp]
theorem mem_erase {s : VarSet} {u v : Var} : u ∈ s.erase v ↔ u ∈ s ∧ u ≠ v := by
  simp [erase]

def inter (s t : VarSet) : VarSet :=
  s.filter (· ∈ t)

@[simp]
theorem mem_inter {s t : VarSet} {u : Var} : u ∈ s.inter t ↔ u ∈ s ∧ u ∈ t := by
  simp [inter]

def disjoint (s t : VarSet) : Bool :=
  (s.inter t).isEmpty

theorem isEmpty_iff {s : VarSet} : s.isEmpty ↔ s = ∅ := by
  obtain ⟨xs, h⟩ := s
  cases xs
  case nil => exact iff_of_true rfl rfl
  case cons => exact iff_of_false Bool.false_ne_true (fun e => nomatch congrArg toList e)

theorem disjoint_iff {s t : VarSet} : s.disjoint t ↔ ∀ v ∈ s, v ∉ t := by
  rw [disjoint, isEmpty_iff]
  constructor
  case mp => exact fun h v hs ht => not_mem_empty v (h ▸ mem_inter.mpr ⟨hs, ht⟩)
  case mpr => exact fun h => ext fun v => by simpa using h v

-- Sets are compared as words over their members: at the first difference, or by length.
instance : Ord VarSet where
  compare s t := s.toList.compareLex compare t.toList

end VarSet
end Sentential
