import Sentential.Keyed

namespace Sentential

-- Values for some of the variables, listed in name order.
structure VarMap (β : Type) where
  entries : List (Var × β)
  sorted : entries.Pairwise (·.1 < ·.1) := by simp
deriving DecidableEq, Repr

namespace VarMap

variable {β : Type} {m : VarMap β} {v w : Var} {b : β}

instance : EmptyCollection (VarMap β) where
  emptyCollection := { entries := [] }

-- The value for a variable, if there is one.
def find? (m : VarMap β) (v : Var) : Option β :=
  (m.entries.find? (·.1 = v)).map Prod.snd

-- The map with a value for the variable, whether it had one before or not.
def insert (m : VarMap β) (v : Var) (b : β) : VarMap β where
  entries := Keyed.place Prod.fst (v, b) m.entries
  sorted := Keyed.place_sorted m.sorted

@[simp]
theorem find?_insert : (m.insert v b).find? w = if w = v then some b else m.find? w := by
  rw [find?, insert, Keyed.find?_place, apply_ite (Option.map Prod.snd)]
  rfl

theorem mem_entries : (v, b) ∈ m.entries ↔ m.find? v = some b := by
  rw [find?, Option.map_eq_some_iff]
  constructor
  case mp => exact fun h => ⟨(v, b), Keyed.find?_of_mem m.sorted h, rfl⟩
  case mpr =>
    rintro ⟨e, he, rfl⟩
    have hv : e.1 = v := by simpa using List.find?_some he
    exact hv ▸ List.mem_of_find?_eq_some he

end VarMap
end Sentential
