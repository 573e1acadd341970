import Mathlib.Data.List.Basic
import Sentential.Dimacs.Reader
import Sentential.Proofs.NormalForm
import Sentential.Proofs.Printing
import Sentential.Proofs.Splitting

namespace Sentential.Dimacs

open Text

variable {cs : List Clause} {c : Clause} {vs : List Var} {v : Var} {l : Literal} {x : Char}

-- The number of a literal, negative if the variable is negated.
def signed (vs : List Var) (l : Literal) : Int :=
  if l.positive then number vs l.var else -number vs l.var

theorem signed_ne_zero (vs : List Var) (l : Literal) : signed vs l ≠ 0 := by
  unfold signed number
  split <;> omega

theorem natAbs_signed (vs : List Var) (l : Literal) : (signed vs l).natAbs = number vs l.var := by
  unfold signed
  split <;> simp

theorem signed_pos_iff : 0 < signed vs l ↔ l.positive := by
  unfold signed number
  split
  case isTrue hp => exact iff_of_true (by omega) hp
  case isFalse hp => exact iff_of_false (by omega) hp

theorem literalText_eq_repr (vs : List Var) (l : Literal) : literalText vs l = (signed vs l).repr := by
  unfold literalText signed
  split <;> rfl

theorem isDigit_of_mem_repr {n : Nat} (h : x ∈ n.repr.toList) : x.isDigit :=
  Nat.isDigit_of_mem_toDigits (by decide) (by decide) (Nat.toList_repr ▸ h)

theorem mem_repr_int {n : Int} (h : x ∈ n.repr.toList) : x = '-' ∨ x.isDigit := by
  cases n
  case ofNat n => exact .inr (isDigit_of_mem_repr h)
  case negSucc n =>
    rw [Int.repr, String.toList_append] at h
    exact (List.mem_append.mp h).imp List.mem_singleton.mp isDigit_of_mem_repr

theorem readNat?_repr (n : Nat) : readNat? n.repr.toList = some n := by
  have hd : n.repr.toList.all Char.isDigit := List.all_eq_true.mpr fun _ => isDigit_of_mem_repr
  have hn : n.repr.toList ≠ [] := Nat.toList_repr ▸ Nat.toDigits_ne_nil
  rw [readNat?, if_pos ⟨hn, hd⟩, Nat.toList_repr, Nat.ofDigitChars_toDigits (by decide) (by decide)]

theorem readInt?_repr (n : Int) : readInt? n.repr.toList = some n := by
  cases n
  case ofNat n =>
    change readInt? n.repr.toList = _
    rw [readInt?, readNat?_repr, Option.map_some]
    · intro word he
      exact absurd (isDigit_of_mem_repr (x := '-') (he ▸ List.mem_cons_self)) (by decide)
  case negSucc n =>
    rw [Int.repr, String.toList_append]
    change (readNat? n.succ.repr.toList).map (-Int.ofNat ·) = _
    rw [readNat?_repr, Option.map_some, Int.ofNat_eq_natCast, Int.neg_ofNat_succ]

theorem toList_nameLine (vs : List Var) (v : Var) :
    (nameLine vs v).toList = ['c'] ++ ' ' :: ((number vs v).repr.toList ++ ' ' :: v.name.toList) := by
  simp [nameLine, toString]

theorem toList_header (vs : List Var) (cs : List Clause) : (header vs cs).toList =
    ['p'] ++ ' ' :: (['c', 'n', 'f'] ++ ' ' :: (vs.length.repr.toList ++ ' ' :: cs.length.repr.toList)) := by
  simp [header, toString]

theorem toList_clauseLine (vs : List Var) (c : Clause) : (clauseLine vs c).toList =
    (c.literals.map fun l => (signed vs l).repr.toList).flatMap (· ++ [' ']) ++ (0 : Int).repr.toList := by
  have hz : (0 : Int).repr.toList = ['0'] := rfl
  simp [clauseLine, literalText_eq_repr, List.flatMap_map, hz]

theorem toList_encode (cs : List Clause) :
    (encode cs).toList = ((lines cs).map String.toList).flatMap (· ++ ['\n']) := by
  simp [encode, List.flatMap_map]

-- What the text for the clauses says.
def Document.ofClauses (cs : List Clause) : Document where
  names := (numbering cs).map fun v => (number (numbering cs) v, v)
  varCount := (numbering cs).length
  clauseCount := cs.length
  rows := cs.map fun c => c.literals.map (signed (numbering cs))

theorem var_mem_numbering (hc : c ∈ cs) (hl : l ∈ c) : l.var ∈ numbering cs :=
  mem_clauseVars.mpr ⟨c, hc, Clause.var_mem_vars hl⟩

theorem mapM_map_eq_some {α β γ : Type} {f : β → Option γ} {g : α → β} {h : α → γ} {xs : List α}
    (hf : ∀ a ∈ xs, f (g a) = some (h a)) : (xs.map g).mapM f = some (xs.map h) := by
  induction xs
  case nil => rfl
  case cons a xs hi =>
    have ⟨ha, hxs⟩ := List.forall_mem_cons.mp hf
    rw [List.map_cons, List.mapM_cons, ha, hi hxs]
    rfl

theorem mapM_map_cancel {α β : Type} {f : β → Option α} {g : α → β} {xs : List α}
    (hf : ∀ a ∈ xs, f (g a) = some a) : (xs.map g).mapM f = some xs := by
  rw [mapM_map_eq_some hf, List.map_id']

namespace Document

theorem blank_not_mem_repr (n : Nat) : ' ' ∉ n.repr.toList :=
  fun h => absurd (isDigit_of_mem_repr h) (by decide)

theorem readName?_nameLine (vs : List Var) (v : Var) :
    readName? (nameLine vs v).toList = some (number vs v, v) := by
  have ⟨word, words, hw⟩ := exists_split_eq_cons ' ' v.name.toList
  have hj := intercalate_split ' ' v.name.toList
  rw [hw] at hj
  rw [readName?, toList_nameLine, split_append_cons (by decide),
    split_append_cons (blank_not_mem_repr _), hw]
  simp only [String.ofList_toList, readNat?_repr, Option.map_some, hj]

theorem readName?_header (vs : List Var) (cs : List Clause) : readName? (header vs cs).toList = none := by
  rw [readName?, toList_header, split_append_cons (by decide)]
  rfl

theorem readHeader?_header (vs : List Var) (cs : List Clause) :
    readHeader? (header vs cs).toList = some (vs.length, cs.length) := by
  rw [readHeader?, toList_header, split_append_cons (by decide), split_append_cons (by decide),
    split_append_cons (blank_not_mem_repr _), split_of_not_mem (blank_not_mem_repr _)]
  simp only [readNat?_repr]
  rfl

theorem readRow?_clauseLine (vs : List Var) (c : Clause) :
    readRow? (clauseLine vs c).toList = some (c.literals.map (signed vs)) := by
  have hn : ∀ n : Int, ' ' ∉ n.repr.toList := fun n h => absurd (mem_repr_int h) (by decide)
  have hs : split ' ' (clauseLine vs c).toList =
      (c.literals.map (signed vs) ++ [0]).map fun n : Int => n.repr.toList := by
    rw [toList_clauseLine, split_flatMap _, split_of_not_mem (hn 0)]
    · simp
    · simpa using fun l _ => hn (signed vs l)
  have hz : 0 ∉ c.literals.map (signed vs) := by simpa using fun l _ => signed_ne_zero vs l
  rw [readRow?, hs, mapM_map_cancel fun n _ => readInt?_repr n]
  simp [hz]

-- The comments come first, for whatever part of the variables.
theorem readLines?_lines (vs ws : List Var) (cs : List Clause) :
    readLines? ((ws.map (nameLine vs) ++ [header vs cs] ++ cs.map (clauseLine vs)).map String.toList) =
      some {
        names := ws.map fun v => (number vs v, v)
        varCount := vs.length
        clauseCount := cs.length
        rows := cs.map fun c => c.literals.map (signed vs) } := by
  induction ws
  case nil =>
    have hr : ((cs.map (clauseLine vs)).map String.toList).mapM readRow? =
        some (cs.map fun c => c.literals.map (signed vs)) := by
      rw [List.map_map]
      exact mapM_map_eq_some fun c _ => readRow?_clauseLine vs c
    rw [List.map_nil, List.nil_append, List.singleton_append, List.map_cons, readLines?, readName?_header,
      readHeader?_header, hr]
    rfl
  case cons w ws hi =>
    rw [List.map_cons, List.cons_append, List.cons_append, List.map_cons, readLines?, readName?_nameLine, hi]
    rfl

theorem lineFeed_not_mem_lines {line : String} (h : ∀ c ∈ cs, ∀ v ∈ c.vars, '\n' ∉ v.name.toList)
    (hl : line ∈ lines cs) : '\n' ∉ line.toList := by
  have hd : ∀ n : Nat, '\n' ∉ n.repr.toList := fun n h => absurd (isDigit_of_mem_repr h) (by decide)
  have hi : ∀ n : Int, '\n' ∉ n.repr.toList := fun n h => absurd (mem_repr_int h) (by decide)
  simp only [lines, List.mem_append, List.mem_map, List.mem_singleton, or_assoc] at hl
  obtain ⟨v, hv, rfl⟩ | rfl | ⟨c, -, rfl⟩ := hl
  · have ⟨c, hc, hv⟩ := mem_clauseVars.mp hv
    simp [toList_nameLine, hd, h c hc v hv, -Nat.toList_repr]
  · simp [toList_header, hd, -Nat.toList_repr]
  · simp [toList_clauseLine, hi]

theorem read?_encode (h : ∀ c ∈ cs, ∀ v ∈ c.vars, '\n' ∉ v.name.toList) :
    read? (encode cs) = some (ofClauses cs) := by
  have hl : ∀ line ∈ (lines cs).map String.toList, '\n' ∉ line :=
    List.forall_mem_map.mpr fun _ => lineFeed_not_mem_lines h
  have hs : split '\n' (encode cs).toList = (lines cs).map String.toList ++ [[]] := by
    rw [toList_encode, ← List.append_nil (List.flatMap ..), split_flatMap hl]
    rfl
  rw [read?, hs]
  simp only [List.getLast?_concat, List.dropLast_concat, if_pos]
  exact readLines?_lines (numbering cs) (numbering cs) cs

-- The numbers of the variables are apart from each other, so a variable is found by its number.
theorem literal?_signed (hl : l.var ∈ numbering cs) :
    (ofClauses cs).literal? (signed (numbering cs) l) = some l := by
  have hf : ((ofClauses cs).names.find? (·.1 = number (numbering cs) l.var)).isSome := by
    rw [List.find?_isSome]
    exact ⟨_, List.mem_map_of_mem hl, decide_eq_true rfl⟩
  have ⟨name, hname⟩ := Option.isSome_iff_exists.mp hf
  have hn : name.1 = number (numbering cs) l.var := by simpa using List.find?_some hname
  obtain ⟨v, hv, rfl⟩ := List.mem_map.mp (List.mem_of_find?_eq_some hname)
  have heq : v = l.var := (List.idxOf_inj hv).mp (Nat.succ_inj.mp hn)
  rw [literal?, natAbs_signed, hname, Option.map_some, heq, Var.literal]
  simp [signed_pos_iff]

theorem clause?_signed (hc : c ∈ cs) :
    (ofClauses cs).clause? (c.literals.map (signed (numbering cs))) = some c := by
  have hm := mapM_map_cancel (f := (ofClauses cs).literal?) fun l (hl : l ∈ c.literals) =>
    literal?_signed (var_mem_numbering hc (Clause.mem_literals.mp hl))
  rw [clause?, hm, Option.map_some, Clause.ofLiterals_literals]

theorem clauses?_ofClauses (cs : List Clause) : (ofClauses cs).clauses? = some cs :=
  mapM_map_cancel fun _ => clause?_signed

theorem getElem?_of_mem_names {n : Nat} (h : (n, v) ∈ (ofClauses cs).names) :
    (numbering cs)[n - 1]? = some v := by
  have ⟨w, hw, heq⟩ := List.mem_map.mp h
  cases heq
  exact List.getElem?_idxOf hw

-- The numbers count the variables from one.
theorem names_ofClauses (cs : List Clause) :
    (ofClauses cs).names.map Prod.fst = List.range' 1 (ofClauses cs).varCount := by
  have hn : (numbering cs).Nodup := (clauseVars cs).sorted.imp Var.ne_of_lt
  apply List.ext_getElem
  case hl => simp [ofClauses]
  case h =>
    intro k hk _
    have hk : k < (numbering cs).length := by simpa [ofClauses] using hk
    simp [ofClauses, number, hn.idxOf_getElem k hk, Nat.add_comm]

-- Every number of a variable is in some clause, and no clause has any other.
theorem exists_mem_rows_iff {n : Nat} : (∃ row ∈ (ofClauses cs).rows, ∃ k ∈ row, k.natAbs = n) ↔
    1 ≤ n ∧ n ≤ (ofClauses cs).varCount := by
  have hr : n ∈ (ofClauses cs).names.map Prod.fst ↔ 1 ≤ n ∧ n ≤ (ofClauses cs).varCount := by
    rw [names_ofClauses, List.mem_range'_1]
    omega
  rw [← hr]
  constructor
  case mp =>
    rintro ⟨_, hrow, _, hk, rfl⟩
    obtain ⟨c, hc, rfl⟩ := List.mem_map.mp hrow
    obtain ⟨l, hl, rfl⟩ := List.mem_map.mp hk
    have hv := var_mem_numbering hc (Clause.mem_literals.mp hl)
    rw [natAbs_signed]
    exact List.mem_map_of_mem (List.mem_map_of_mem hv)
  case mpr =>
    rw [ofClauses, List.map_map, List.mem_map]
    rintro ⟨v, hv, rfl⟩
    obtain ⟨c, hc, hv⟩ := mem_clauseVars.mp hv
    obtain ⟨l, hl, rfl⟩ := Clause.exists_literal_of_mem_vars hv
    exact ⟨_, List.mem_map_of_mem hc, _, List.mem_map_of_mem (Clause.mem_literals.mpr hl), natAbs_signed ..⟩

-- What the document says of the numbers is what the clauses say of the variables with these numbers.
theorem holdsUnder_ofClauses {value : Nat → Bool} {ν : Valuation}
    (h : ∀ n v, (n, v) ∈ (ofClauses cs).names → ν v = value n) :
    (ofClauses cs).HoldsUnder value ↔ ∀ c ∈ cs, ν.Satisfies c := by
  have hl : ∀ c ∈ cs, ∀ l ∈ c, value (signed (numbering cs) l).natAbs = ν l.var := by
    intro c hc l hl
    rw [natAbs_signed]
    exact (h _ _ <| List.mem_map_of_mem <| var_mem_numbering hc hl).symm
  rw [HoldsUnder, ofClauses, List.forall_mem_map]
  refine forall₂_congr fun c hc => ?_
  simp only [List.mem_map, Clause.mem_literals, exists_exists_and_eq_and, signed_pos_iff, Valuation.Satisfies]
  refine exists_congr fun l => and_congr_right fun h => ?_
  rw [hl c hc l h, Bool.decide_eq_true]

end Document

-- Names are read as words, and no word holds a line feed.
theorem lineFeed_not_mem_of_parse {text : String} {s : Sentence} (h : Sentence.parse text = .ok s)
    (hc : c ∈ s.clauses) (hv : v ∈ c.vars) : '\n' ∉ v.name.toList :=
  (Sentence.isReadable_of_parse h <| Sentence.mem_vars_of_mem_clauses hc hv).not_mem <|
    not_isWordChar_of_isBlank (by decide)

-- If no name holds a line feed, and none does that was read from a text, then the text for the clauses
-- reads back as a document with these clauses in this order. It counts the variables and the clauses, the
-- comments and the clauses use the numbers from one to the count of variables, and the names follow
-- the numbering, which is the variables of the clauses in name order. If the clauses are those of a
-- sentence, values of the numbers satisfy the document just if those of the names satisfy the sentence.
theorem encode_reads_back (cs : List Clause) (h : ∀ c ∈ cs, ∀ v ∈ c.vars, '\n' ∉ v.name.toList) :
    (∃ d, Document.read? (encode cs) = some d ∧
      d.clauses? = some cs ∧
      d.varCount = (numbering cs).length ∧ d.clauseCount = cs.length ∧
      d.names.map Prod.fst = List.range' 1 d.varCount ∧
      (∀ n, (∃ row ∈ d.rows, ∃ k ∈ row, k.natAbs = n) ↔ 1 ≤ n ∧ n ≤ d.varCount) ∧
      (∀ n v, (n, v) ∈ d.names → (numbering cs)[n - 1]? = some v) ∧
      ∀ s : Sentence, s.clauses = cs → ∀ (value : Nat → Bool) (ν : Valuation),
        (∀ n v, (n, v) ∈ d.names → ν v = value n) → (d.HoldsUnder value ↔ ν.holds s)) ∧
    (numbering cs).Pairwise (· < ·) ∧ (∀ v, v ∈ numbering cs ↔ ∃ c ∈ cs, v ∈ c.vars) ∧
    ∀ text s, Sentence.parse text = .ok s → ∀ c ∈ s.clauses, ∀ v ∈ c.vars, '\n' ∉ v.name.toList := by
  refine ⟨⟨.ofClauses cs, Document.read?_encode h, Document.clauses?_ofClauses cs, rfl, rfl,
    Document.names_ofClauses cs, fun _ => Document.exists_mem_rows_iff,
    fun _ _ => Document.getElem?_of_mem_names, ?_⟩, (clauseVars cs).sorted, fun _ => mem_clauseVars,
    fun _ _ hp _ hc _ hv => lineFeed_not_mem_of_parse hp hc hv⟩
  rintro s rfl value ν hν
  rw [Document.holdsUnder_ofClauses hν, Valuation.holds_iff_clauses]

-- There is a name that looks like the numbers of a clause, an empty clause, and a tautology twice.
theorem encode_reads_back_odd_clauses :
    let cs : List Clause := [
      ⟨.ofList [⟨"B"⟩], .ofList [⟨"1 0"⟩]⟩, ∅,
      ⟨.ofList [⟨"B"⟩], .ofList [⟨"B"⟩]⟩, ⟨.ofList [⟨"B"⟩], .ofList [⟨"B"⟩]⟩]
    encode cs = "c 1 1 0\nc 2 B\np cnf 2 4\n2 -1 0\n0\n2 -2 0\n2 -2 0\n" ∧
    (∀ c ∈ cs, ∀ v ∈ c.vars, '\n' ∉ v.name.toList) ∧
    ∃ d, Document.read? (encode cs) = some d ∧ d.clauses? = some cs ∧ d.varCount = 2 ∧ d.clauseCount = 4 := by
  intro cs
  have h : ∀ c ∈ cs, ∀ v ∈ c.vars.toList, '\n' ∉ v.name.toList := by decide +kernel
  have ⟨⟨d, hd, hc, hv, hn, _⟩, _⟩ := encode_reads_back cs h
  exact ⟨by decide +kernel, h, d, hd, hc, hv.trans (by decide +kernel), hn⟩

end Sentential.Dimacs
