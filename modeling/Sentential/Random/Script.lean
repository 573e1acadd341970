import Sentential.Random.Generator

namespace Sentential.Random.Script

-- The words, those of them still to come, and the number of words handed out.
structure State where
  words : List UInt64
  left : List UInt64
  drawn : Nat
deriving DecidableEq, Repr

namespace State

def ofWords (words : List UInt64) : State where
  words
  left := words
  drawn := 0

-- The next word. After the last one the first one comes again, and where there are no words at all, it
-- is zero.
def next (s : State) : UInt64 × State :=
  match s.left with
  | w :: left => (w, { s with left, drawn := s.drawn + 1 })
  | [] => (s.words.headD 0, { s with left := s.words.tail, drawn := s.drawn + 1 })

end State

-- A short word is the low half of a wide one.
def generator : Generator State where
  word32 s :=
    let (w, s) := s.next
    (w.toUInt32, s)
  word64 s := s.next

end Sentential.Random.Script
