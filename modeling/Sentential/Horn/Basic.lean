import Sentential.Ordered
import Sentential.Sentence.Printer

namespace Sentential

-- The implication of one variable by the conjunction of others, which are in order of first mention.
structure HornClause where
  head : Var
  premises : List Var
  nodup : premises.Nodup := by simp
deriving DecidableEq, Repr

namespace HornClause

-- The clause with one more premise, unless it has that one already.
def addPremise (c : HornClause) (v : Var) : HornClause :=
  if h : v ∈ c.premises then c
  else {
    head := c.head
    premises := c.premises ++ [v]
    nodup := List.nodup_append.mpr
      ⟨c.nodup, by simp, fun _ hu _ hv he => h (List.mem_singleton.mp hv ▸ he ▸ hu)⟩ }

theorem head_addPremise (c : HornClause) (v : Var) : (c.addPremise v).head = c.head := by
  unfold addPremise
  split <;> rfl

theorem premises_addPremise (c : HornClause) (v : Var) :
    (c.addPremise v).premises = (c.premises ++ [v]).eraseDups := by
  rw [List.eraseDups_append, eraseDups_of_nodup c.nodup, addPremise]
  split
  case isTrue h => simp [List.removeAll, h]
  case isFalse h => simp [List.removeAll, h, List.eraseDups_cons]

-- The clause with the given premises, each one counted once.
def new (head : Var) (premises : List Var) : HornClause :=
  premises.foldl addPremise { head, premises := [] }

theorem head_foldl_addPremise (vs : List Var) (c : HornClause) :
    (vs.foldl addPremise c).head = c.head := by
  induction vs generalizing c
  case nil => rfl
  case cons v vs hi => rw [List.foldl_cons, hi, head_addPremise]

theorem premises_foldl_addPremise (vs : List Var) (c : HornClause) :
    (vs.foldl addPremise c).premises = (c.premises ++ vs).eraseDups := by
  induction vs generalizing c
  case nil => rw [List.foldl_nil, List.append_nil, eraseDups_of_nodup c.nodup]
  case cons v vs hi =>
    rw [List.foldl_cons, hi, premises_addPremise, eraseDups_eraseDups_append, List.append_assoc,
      List.singleton_append]

@[simp]
theorem head_new (v : Var) (vs : List Var) : (new v vs).head = v :=
  head_foldl_addPremise vs _

@[simp]
theorem premises_new (v : Var) (vs : List Var) : (new v vs).premises = vs.eraseDups :=
  premises_foldl_addPremise vs _

def isFact (c : HornClause) : Bool :=
  c.premises.isEmpty

-- Adds the leaves of a tree of conjunctions, from left to right. At the first one that is no variable it
-- gives up, with what was added so far.
def addPremises (c : HornClause) : Sentence → Bool × HornClause
  | .var v => (true, c.addPremise v)
  | .and l r =>
    match c.addPremises l with
    | (true, c') => c'.addPremises r
    | (false, c') => (false, c')
  | _ => (false, c)

-- Reads a variable as a fact, and the implication of a variable by a conjunction of variables as
-- the clause that it is.
def ofSentence? : Sentence → Option HornClause
  | .var head => some (new head [])
  | .implies antecedent (.var head) =>
    match (new head []).addPremises antecedent with
    | (true, c) => some c
    | (false, _) => none
  | _ => none

-- The clause as a chain of connectives.
def text (c : HornClause) : String :=
  if c.isFact then c.head.name
  else " AND ".intercalate (c.premises.map Var.name) ++ " => " ++ c.head.name

instance : ToString HornClause where
  toString := text

def listing (c : HornClause) : String :=
  "HornClause \x7b head: " ++ c.head.name ++ ", premises: [" ++
    ", ".intercalate (c.premises.map Var.name) ++ "] \x7d"

end HornClause

-- A sentence that is no Horn clause.
structure NotHorn where
  sentence : Sentence
deriving DecidableEq, Repr

namespace NotHorn

def message (e : NotHorn) : String :=
  "Sentence is not a Horn clause: " ++ e.sentence.text

end NotHorn

def HornClause.ofSentence (s : Sentence) : Except NotHorn HornClause :=
  match ofSentence? s with
  | some c => .ok c
  | none => .error ⟨s⟩

end Sentential
