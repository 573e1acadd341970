namespace Sentential.Kleene

-- A value that is not known is `none`. What a connective gives is known as soon as its known operands
-- force it.
def not : Option Bool → Option Bool
  | some b => some !b
  | none => none

def and : Option Bool → Option Bool → Option Bool
  | some false, _ | _, some false => some false
  | some true, some true => some true
  | _, _ => none

def or : Option Bool → Option Bool → Option Bool
  | some true, _ | _, some true => some true
  | some false, some false => some false
  | _, _ => none

def implies (a b : Option Bool) : Option Bool :=
  or (not a) b

def iff : Option Bool → Option Bool → Option Bool
  | some a, some b => some (a == b)
  | _, _ => none

-- The conjunction of a list: true for the empty list.
def all (xs : List (Option Bool)) : Option Bool :=
  xs.foldr and (some true)

-- The disjunction of a list: false for the empty list.
def any (xs : List (Option Bool)) : Option Bool :=
  xs.foldr or (some false)

end Sentential.Kleene
