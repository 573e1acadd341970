import Sentential.Precondition

namespace Sentential

structure Settings where
  maxFlips : Nat := 10000
  probability : Float := 0.5
  -- Without a seed, every search gets a fresh one.
  seed : Option UInt64 := none
deriving Repr

namespace Settings

-- New values for some of the parameters.
structure Update where
  maxFlips : Option Nat := none
  probability : Option Float := none
  seed : Option UInt64 := none
deriving Repr

namespace Update

-- Both updates, of which the second one has precedence.
def merge (u v : Update) : Update where
  maxFlips := v.maxFlips <|> u.maxFlips
  probability := v.probability <|> u.probability
  seed := v.seed <|> u.seed

-- Changes the settings in place, one value after the other. The check comes first, so that values which
-- are not valid change nothing.
def change (u : Update) : EStateM Precondition Settings Unit := do
  u.probability.forM fun p => ofExcept (checkProbability p)
  u.maxFlips.forM fun n => modify ({ · with maxFlips := n })
  u.probability.forM fun p => modify ({ · with probability := p })
  u.seed.forM fun x => modify ({ · with seed := some x })

end Update

-- The settings with the values of the update, if they are valid.
def apply (s : Settings) (u : Update) : Except Precondition Settings :=
  match u.change.run s with
  | .ok _ s' => .ok s'
  | .error e _ => .error e

-- What the parameters are for.
def help : String :=
  "max_flips: Number of flips before giving up. (Default: 10000)\n" ++
  "random_walk_probability: Probability of flipping a random variable instead of the best one. " ++
  "(Default: 0.5)\n" ++
  "seed: Seed for the random number generator, a fresh seed is used for every search when unset. " ++
  "(Default: None)\n"

end Settings
end Sentential
