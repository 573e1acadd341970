namespace Sentential

variable {α : Type} [BEq α] [LawfulBEq α]

theorem nodup_eraseDups (xs : List α) : xs.eraseDups.Nodup := by
  match xs with
  | [] => simp
  | x :: xs =>
    rw [List.eraseDups_cons, List.nodup_cons]
    exact ⟨by simp [List.mem_eraseDups], nodup_eraseDups _⟩
termination_by xs.length
decreasing_by exact Nat.lt_succ_of_le (List.length_filter_le _ _)

theorem eraseDups_of_nodup {xs : List α} (h : xs.Nodup) : xs.eraseDups = xs := by
  induction xs
  case nil => rfl
  case cons x xs ih =>
    have ⟨hx, hn⟩ := List.nodup_cons.mp h
    have hf : xs.filter (fun y => !y == x) = xs :=
      List.filter_eq_self.mpr fun y hy => by simpa using fun e : y = x => hx (e ▸ hy)
    rw [List.eraseDups_cons, hf, ih hn]

-- What was dropped already need not be looked at again.
theorem eraseDups_eraseDups_append (xs ys : List α) :
    (xs.eraseDups ++ ys).eraseDups = (xs ++ ys).eraseDups := by
  have hr : ys.removeAll xs.eraseDups = ys.removeAll xs :=
    List.filter_congr fun y _ => by simp [List.mem_eraseDups]
  rw [List.eraseDups_append, List.eraseDups_append, hr, eraseDups_of_nodup (nodup_eraseDups xs)]

-- What was found, the last of it first here, and then what else there is in `xs`, in order of first
-- occurrence. It is what a loop comes to that puts the elements of `xs` into `found` one by one.
def foundWith (found xs : List α) : List α :=
  found.reverse ++ (xs.removeAll found).eraseDups

omit [LawfulBEq α] in
@[simp]
theorem foundWith_nil (found : List α) : foundWith found [] = found.reverse := by
  simp [foundWith]

omit [LawfulBEq α] in
@[simp]
theorem nil_foundWith (xs : List α) : foundWith [] xs = xs.eraseDups := by
  have hn : xs.removeAll [] = xs := List.filter_eq_self.mpr fun _ _ => rfl
  rw [foundWith, hn, List.reverse_nil, List.nil_append]

theorem foundWith_insert (found xs : List α) (x : α) :
    foundWith (found.insert x) xs = foundWith found (x :: xs) := by
  by_cases hx : x ∈ found
  case pos => simp [foundWith, List.removeAll, hx]
  case neg =>
    have hf : xs.removeAll (x :: found) = (xs.removeAll found).filter fun y => !y == x := by
      rw [List.removeAll, List.removeAll, List.filter_filter]
      refine List.filter_congr fun y _ => ?_
      by_cases hy : y = x
      case pos => simp [hy]
      case neg => simp [hy]
    rw [List.insert_of_not_mem hx, foundWith, foundWith, hf, List.reverse_cons, List.append_assoc,
      List.cons_removeAll, if_pos (by simpa using hx), List.eraseDups_cons, List.singleton_append]

-- The different elements of `xs` in increasing order.
def ordered [Ord α] (xs : List α) : List α :=
  xs.eraseDups.mergeSort fun x y => (compare x y).isLE

end Sentential
