import Sentential.Pattern.CharSet

namespace Sentential

inductive Pattern where
  | empty
  -- A character of the set, or of the set with case folded.
  | one (fold : Bool) (s : CharSet)
  -- Nothing, at the start of the text or also of a line.
  | start (ofLine : Bool)
  -- Nothing, at the end of the text or also of a line.
  | finish (ofLine : Bool)
  -- Nothing, at an end of a word or anywhere else.
  | wordEdge (isEdge : Bool)
  | sequence (p q : Pattern)
  | either (p q : Pattern)
  -- The pattern so many times in a row. Without an upper bound, as often as it may be.
  | times (least : Nat) (most : Option Nat) (p : Pattern)
deriving DecidableEq, Repr

namespace Pattern

-- Applies a function so many times, or until that makes no difference any more.
def settle {α : Type} [DecidableEq α] (f : α → α) : Nat → α → α
  | 0, x => x
  | n + 1, x =>
    let y := f x
    if y = x then x else settle f n y

def union (ms ns : List Bool) : List Bool :=
  ms.zipWith (· || ·) ns

def inter (ms ns : List Bool) : List Bool :=
  ms.zipWith (· && ·) ns

-- Marks the places between a part of a word and something else.
def wordEdges (text : List Char) : List Bool :=
  let ws := text.map CharSet.isWordPart
  (false :: ws).zipWith (· != ·) (ws ++ [false])

-- The places to which the pattern leads from the marked ones. No more repetitions count than there
-- are places: with one more, some repetition is empty and can be left out or added.
def reach (text : List Char) : Pattern → List Bool → List Bool
  | empty, ms => ms
  | one fold s, ms => false :: ms.zipWith (fun m c => m && s.contains fold c) text
  | start ofLine, ms => inter ms (true :: text.map fun c => ofLine && c = '\n')
  | finish ofLine, ms => inter ms (text.map (fun c => ofLine && c = '\n') ++ [true])
  | wordEdge isEdge, ms => inter ms ((wordEdges text).map (· == isEdge))
  | sequence p q, ms => q.reach text (p.reach text ms)
  | either p q, ms => union (p.reach text ms) (q.reach text ms)
  | times least most p, ms =>
    let places := text.length + 1
    let spare := match most with
      | some n => min (n - least) places
      | none => places
    settle (fun ms => union ms (p.reach text ms)) spare
      (settle (p.reach text) (min least places) ms)

-- Whether some part of the text looks like the pattern.
def occursIn (p : Pattern) (text : String) : Bool :=
  let cs := text.toList
  (p.reach cs (List.replicate (cs.length + 1) true)).any id

end Pattern
end Sentential
