import Sentential.Algorithm

namespace Sentential.CommandLine

-- What can be asked to do the work: one of the deciding algorithms, or the random walk.
inductive Engine where
  | deciding (a : Algorithm)
  | walkSat
deriving DecidableEq, Repr

namespace Engine

def name : Engine → String
  | deciding a => a.name
  | walkSat => "walksat"

def all : List Engine :=
  Algorithm.all.map deciding ++ [walkSat]

-- The engine of that name, in letters of either case.
def ofName? (name : String) : Option Engine :=
  all.find? (·.name = String.ofList (name.toList.map Char.toLower))

end Engine

-- The options that take a value.
inductive Key where
  | query
  | algorithm
  | settingsFile
  | setting
  | dimacs
deriving DecidableEq, Repr

namespace Key

def name : Key → String
  | query => "query"
  | algorithm => "algorithm"
  | settingsFile => "config"
  | setting => "config-option"
  | dimacs => "dimacs"

def all : List Key :=
  [query, algorithm, settingsFile, setting, dimacs]

def ofName? (name : List Char) : Option Key :=
  all.find? (·.name.toList = name)

def ofLetter? (c : Char) : Option Key :=
  if c = 'C' then some setting else none

-- Whether the option may be given several times.
def repeatable : Key → Bool
  | setting => true
  | _ => false

end Key

-- Why the arguments make no sense.
inductive UsageError where
  | unknownOption (argument : String)
  | missingValue (key : Key)
  | repeatedOption (key : Key)
  | secondInput (argument : String)
  | unknownEngine (name : String)
deriving DecidableEq, Repr

namespace UsageError

def message : UsageError → String
  | unknownOption argument => "Found argument '" ++ argument ++ "' which wasn't expected"
  | missingValue key => "The option '--" ++ key.name ++ "' requires a value"
  | repeatedOption key => "The option '--" ++ key.name ++ "' was given more than once"
  | secondInput argument => "Found a second input '" ++ argument ++ "'"
  | unknownEngine name =>
    "'" ++ name ++ "' isn't a valid algorithm, expected one of " ++
      ", ".intercalate (Engine.all.map Engine.name)

end UsageError

-- A part of the command line.
inductive Item where
  | value (key : Key) (value : String)
  -- An option without its value.
  | bare (key : Key)
  | input (name : String)
deriving DecidableEq, Repr

namespace Item

-- Whether the argument is an option. A single dash is none.
def isOption : List Char → Bool
  | ['-'] => false
  | '-' :: _ => true
  | _ => false

-- A value without the equality signs in front of it.
def valueText (cs : List Char) : String :=
  String.ofList (cs.dropWhile (· = '='))

-- The option that an argument is, with its value if that is part of the argument.
def option (argument : List Char) : Except UsageError (Key × Option String) :=
  let unknown := .error (.unknownOption (String.ofList argument))
  let body := argument.dropWhile (· = '-')
  match argument with
  | '-' :: '-' :: _ =>
    let rest := body.dropWhile (· ≠ '=')
    match Key.ofName? (body.takeWhile (· ≠ '=')) with
    | none => unknown
    | some key => .ok (key, if rest.isEmpty then none else some (valueText rest))
  | _ =>
    match body with
    | [] => unknown
    | c :: rest =>
      match Key.ofLetter? c with
      | none => unknown
      | some key => .ok (key, if rest.isEmpty then none else some (valueText rest))

-- The items of the arguments, where the value of the pending option may come first. It does unless the
-- first argument is an option itself. After `--` all arguments are inputs.
def collect (pending : Option Key) : List String → Except UsageError (List Item)
  | [] => .ok (pending.map bare).toList
  | argument :: rest =>
    if argument = "--" then .ok ((pending.map bare).toList ++ rest.map input)
    else if isOption argument.toList then do
      let (key, given) ← option argument.toList
      let items ← match given with
        | some v => (value key v :: ·) <$> collect none rest
        | none => collect (some key) rest
      return (pending.map bare).toList ++ items
    else
      match pending with
      | some key => (value key argument :: ·) <$> collect none rest
      | none => (input argument :: ·) <$> collect none rest

-- The option that the item is of.
def key? : Item → Option Key
  | value key _ | bare key => some key
  | input _ => none

-- The value that the item gives to the option.
def valueOf? (key : Key) : Item → Option String
  | value k v => if k = key then some v else none
  | _ => none

def inputName? : Item → Option String
  | input name => some name
  | _ => none

end Item

-- What is asked for.
structure Options where
  -- The file with the knowledge base, which is otherwise read from the standard input.
  input : Option String
  query : Option String
  engine : Option Engine
  settingsFile : Option String
  settings : List String
  dimacs : Option String
deriving DecidableEq, Repr

namespace Options

-- Makes sure that an option is not given too often, and not without a value.
def checkKey (items : List Item) (key : Key) : Except UsageError Unit :=
  if !key.repeatable ∧ 1 < items.countP (·.key? = some key) then .error (.repeatedOption key)
  else if .bare key ∈ items ∧ items.filterMap (·.valueOf? key) = [] then .error (.missingValue key)
  else .ok ()

-- The input among the items.
def inputOf (items : List Item) : Except UsageError (Option String) :=
  match items.filterMap Item.inputName? with
  | [] => .ok none
  | [name] => .ok (some name)
  | _ :: second :: _ => .error (.secondInput second)

-- The engine of the given name, if a name is given.
def engineOf : Option String → Except UsageError (Option Engine)
  | none => .ok none
  | some name =>
    match Engine.ofName? name with
    | some e => .ok (some e)
    | none => .error (.unknownEngine name)

def ofItems (items : List Item) : Except UsageError Options := do
  Key.all.forM (checkKey items)
  let input ← inputOf items
  let values (key : Key) := items.filterMap (·.valueOf? key)
  let engine ← engineOf (values .algorithm).head?
  return {
    input, engine
    query := (values .query).head?
    settingsFile := (values .settingsFile).head?
    settings := values .setting
    dimacs := (values .dimacs).head? }

def parse (arguments : List String) : Except UsageError Options :=
  Item.collect none arguments >>= ofItems

-- Whether an explanation of the settings is asked for, and nothing else therefore.
def wantsHelp (o : Options) : Bool :=
  "help" ∈ o.settings

end Options
end Sentential.CommandLine
