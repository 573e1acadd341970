import Sentential.Random.Generator

namespace Sentential.Random.ChaCha

-- The sixteen words of a block.
abbrev Block := Vector UInt32 16

def rotateLeft (x : UInt32) (n : UInt32) : UInt32 :=
  (x <<< n) ||| (x >>> (32 - n))

-- Stirs four words of the block.
def quarterRound (a b c d : Fin 16) (s : Block) : Block :=
  let s := s.set a (s[a] + s[b])
  let s := s.set d (rotateLeft (s[d] ^^^ s[a]) 16)
  let s := s.set c (s[c] + s[d])
  let s := s.set b (rotateLeft (s[b] ^^^ s[c]) 12)
  let s := s.set a (s[a] + s[b])
  let s := s.set d (rotateLeft (s[d] ^^^ s[a]) 8)
  let s := s.set c (s[c] + s[d])
  s.set b (rotateLeft (s[b] ^^^ s[c]) 7)

-- Stirs the columns, then the diagonals.
def doubleRound (s : Block) : Block :=
  let s := quarterRound 0 4 8 12 s
  let s := quarterRound 1 5 9 13 s
  let s := quarterRound 2 6 10 14 s
  let s := quarterRound 3 7 11 15 s
  let s := quarterRound 0 5 10 15 s
  let s := quarterRound 1 6 11 12 s
  let s := quarterRound 2 7 8 13 s
  quarterRound 3 4 9 14 s

abbrev Key := Vector UInt32 8

-- What the block with the given number is stirred from.
def initial (key : Key) (number : UInt64) : Block :=
  #v[0x61707865, 0x3320646e, 0x79622d32, 0x6b206574,
    key[0], key[1], key[2], key[3], key[4], key[5], key[6], key[7],
    number.toUInt32, (number >>> 32).toUInt32, 0, 0]

-- Ten double rounds, after which the words they started from are added.
def block (key : Key) (number : UInt64) : Block :=
  let start := initial key number
  Vector.zipWith (· + ·) (Nat.repeat doubleRound 10 start) start

-- The next state of the sequence that keys are made from.
def advance (state : UInt64) : UInt64 :=
  state * 6364136223846793005 + 11634580027462260723

-- The word that a state of the sequence stands for.
def keyWord (state : UInt64) : UInt32 :=
  let x := (((state >>> 18) ^^^ state) >>> 27).toUInt32
  let turn := (state >>> 59).toUInt32
  (x >>> turn) ||| (x <<< ((32 - turn) % 32))

-- The key of a seed.
def keyOfSeed (seed : UInt64) : Key :=
  Vector.ofFn fun i => keyWord (Nat.repeat advance (i.val + 1) seed)

-- A place in the stream: the words left of the present block, and the number of the next one.
structure State where
  key : Key
  left : List UInt32
  number : UInt64
deriving Repr

namespace State

def ofSeed (seed : UInt64) : State where
  key := keyOfSeed seed
  left := []
  number := 0

def next (s : State) : UInt32 × State :=
  match s.left with
  | w :: left => (w, { s with left })
  | [] =>
    let words := block s.key s.number
    (words[0], { s with left := words.toList.tail, number := s.number + 1 })

end State

-- Wide words are made of two, the first of which is the low half.
def generator : Generator State where
  word32 s := s.next
  word64 s :=
    let (low, s) := s.next
    let (high, s) := s.next
    (low.toUInt64 ||| (high.toUInt64 <<< 32), s)

end Sentential.Random.ChaCha
