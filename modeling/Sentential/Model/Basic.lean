import Sentential.Clause.Basic
import Sentential.Kleene
import Sentential.Sentence.Basic
import Sentential.VarMap

namespace Sentential

-- A partial assignment of truth values to variables.
structure Model extends VarMap Bool
deriving DecidableEq, Repr

namespace Model

instance : EmptyCollection Model where
  emptyCollection := { entries := [] }

instance : Inhabited Model where
  default := ∅

-- The value of a variable, if it has one.
def value (m : Model) (v : Var) : Option Bool :=
  m.find? v

-- The model with the variable set to the value, whether it had one before or not.
def extend (m : Model) (v : Var) (b : Bool) : Model where
  toVarMap := m.insert v b

@[simp]
theorem value_extend {m : Model} {v w : Var} {b : Bool} :
    (m.extend v b).value w = if w = v then some b else m.value w :=
  VarMap.find?_insert

@[simp]
theorem value_empty (v : Var) : (∅ : Model).value v = none :=
  rfl

-- The assignments of a model are the values of its variables.
theorem mem_entries {m : Model} {v : Var} {b : Bool} : (v, b) ∈ m.entries ↔ m.value v = some b :=
  VarMap.mem_entries

-- The model in which the literal holds.
def assign (m : Model) (l : Literal) : Model :=
  m.extend l.var l.positive

-- The model of the listed assignments, of which the last one for a variable counts.
def ofList (es : List (Var × Bool)) : Model :=
  es.foldl (fun m e => m.extend e.1 e.2) ∅

-- The model with the value of the variable turned over. A variable without value becomes true.
def flip (m : Model) (v : Var) : Model :=
  m.extend v !(m.value v).getD false

def size (m : Model) : Nat :=
  m.entries.length

def isEmpty (m : Model) : Bool :=
  m.entries.isEmpty

-- The literals that hold, in name order.
def literals (m : Model) : List Literal :=
  m.entries.map fun e => e.1.literal e.2

-- The value of a literal, if its variable has one.
def literalValue (m : Model) (l : Literal) : Option Bool :=
  (m.value l.var).map (· == l.positive)

-- Looks for a literal that is true, and gives `otherwise` if there is none. A literal without a value
-- makes that unknown.
def seekTrue (m : Model) (otherwise : Option Bool) : List Literal → Option Bool
  | [] => otherwise
  | l :: ls =>
    match m.literalValue l with
    | some true => some true
    | some false => m.seekTrue otherwise ls
    | none => m.seekTrue none ls

-- The value of a clause, false only if every literal of it is.
def clauseValue (m : Model) (c : Clause) : Option Bool :=
  m.seekTrue (some false) c.literals

-- The value of a sentence, unknown if it hangs on variables without a value.
def eval (m : Model) : Sentence → Option Bool
  | .truth => some true
  | .falsity => some false
  | .var v => m.value v
  | .not s => Kleene.not (m.eval s)
  | .and l r => Kleene.and (m.eval l) (m.eval r)
  | .or l r => Kleene.or (m.eval l) (m.eval r)
  | .implies l r => Kleene.implies (m.eval l) (m.eval r)
  | .iff l r => Kleene.iff (m.eval l) (m.eval r)

end Model
end Sentential
