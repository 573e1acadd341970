import Sentential.Event
import Sentential.Model.Basic
import Sentential.NormalForm.Basic
import Sentential.Precondition
import Sentential.Random.Generator

namespace Sentential.WalkSat

open Sentential.Random

variable {σ : Type}

def unsatisfied (cs : List Clause) (m : Model) : List Clause :=
  cs.filter (m.clauseValue · ≠ some true)

def satisfiedCount (cs : List Clause) (m : Model) : Nat :=
  cs.countP (m.clauseValue · = some true)

-- The first element with the highest score.
def firstBest {α : Type} (score : α → Nat) : List α → Option α
  | [] => none
  | x :: xs => some (xs.foldl (fun best y => if score best < score y then y else best) x)

-- The first literal of which turning over the variable makes the most clauses true.
def bestFlip (cs : List Clause) (m : Model) (ls : List Literal) : Option Literal :=
  firstBest (fun l => satisfiedCount cs (m.flip l.var)) ls

-- A random assignment of the listed variables.
def randomModel (g : Generator σ) : List Var → Draw σ Model
  | [] => pure ∅
  | v :: vs => do
    let b ← g.bit
    let m ← randomModel g vs
    return m.extend v b

-- What to turn over next: a clause that does not hold, and a literal of it, taken at random or
-- because it is best.
structure Pick where
  clause : Clause
  atRandom : Bool
  literal : Option Literal
deriving DecidableEq, Repr

namespace Pick

-- The model with the picked variable turned over. An empty clause has no variable to turn over.
def apply (k : Pick) (m : Model) : Model :=
  match k.literal with
  | none => m
  | some l => m.flip l.var

end Pick

-- Picks what to turn over, unless all clauses hold.
def pick (g : Generator σ) (p : Float) (cs : List Clause) (m : Model) : Draw σ (Option Pick) := do
  match ← g.choose? (unsatisfied cs m) with
  | none => return none
  | some clause =>
    let atRandom ← g.coin p
    let literal ←
      if atRandom then g.choose? clause.literals
      else pure (bestFlip cs m clause.literals)
    return some { clause, atRandom, literal }

-- Walks on with the given number of flips left, after `done` flips.
def walk (g : Generator σ) (p : Float) (cs : List Clause) :
    Nat → Nat → Model → Draw σ (Traced (Option Model))
  | 0, done, m =>
    if satisfiedCount cs m = cs.length then return ⟨some m, [.modelFoundLast]⟩
    else return ⟨none, [.gaveUp done]⟩
  | left + 1, done, m => do
    match ← pick g p cs m with
    | none => return ⟨some m, [.modelFoundAfter done]⟩
    | some k => walk g p cs left (done + 1) (k.apply m)

-- The walk over the clauses of a sentence.
def run (g : Generator σ) (s : Sentence) (maxFlips : Nat) (p : Float) :
    Draw σ (Traced (Option Model)) := do
  let cs := s.clauses
  if cs.any Clause.isEmpty then return ⟨none, [.emptyClauseGiven]⟩
  else
    let m ← randomModel g (clauseVars cs).toList
    walk g p cs maxFlips 0 m

-- Searches a model of the sentence, choosing variables at random with the probability `p`.
def search (g : Generator σ) (s : Sentence) (maxFlips : Nat) (p : Float) :
    Draw σ (Except Precondition (Traced (Option Model))) :=
  match checkProbability p with
  | .error e => return .error e
  | .ok () => do return .ok (← run g s maxFlips p)

end Sentential.WalkSat
