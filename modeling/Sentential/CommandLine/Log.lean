import Sentential.Pattern.Reader
import Sentential.Text.Lines

namespace Sentential.CommandLine

-- How much to log, from nothing to everything.
inductive Level where
  | off
  | error
  | warn
  | info
  | debug
  | trace
deriving DecidableEq, Ord, Repr

namespace Level

def name : Level → String
  | off => "OFF"
  | error => "ERROR"
  | warn => "WARN"
  | info => "INFO"
  | debug => "DEBUG"
  | trace => "TRACE"

def all : List Level :=
  [off, error, warn, info, debug, trace]

-- The level of that name, in letters of either case.
def ofName? (name : List Char) : Option Level :=
  all.find? (·.name.toList = name.map Char.toUpper)

end Level

namespace Log

-- A rule about the sources whose names start with a text.
structure Rule where
  start : List Char
  level : Level
deriving DecidableEq, Repr

namespace Rule

-- Reads a rule. A name without a level stands for everything that its sources have to say.
def parse? (text : List Char) : Option Rule :=
  match Text.split '=' text with
  | [word] => match Level.ofName? word with
    | some level => some ⟨[], level⟩
    | none => some ⟨word, .trace⟩
  | [start, word] => match Text.trim word with
    | [] => some ⟨start, .trace⟩
    | word => (Level.ofName? word).map (⟨start, ·⟩)
  | _ => none

-- The rules of a list, of which those that make no sense do not count.
def parseList (text : List Char) : List Rule :=
  ((Text.split ',' text).filter (· ≠ [])).filterMap parse?

def covers (r : Rule) (source : String) : Bool :=
  r.start.isPrefixOf source.toList

-- The rule that says more about the sources it covers, and otherwise the later one.
def prefer (r s : Rule) : Rule :=
  if r.start.length ≤ s.start.length then s else r

end Rule
end Log

-- What is to be logged.
structure Log where
  -- The name of the program, with which the names of all sources start.
  program : String
  rules : List Log.Rule := []
  -- What has to occur in a line.
  pattern : Option Pattern := none
deriving Repr

namespace Log

-- Reads a setting: rules, and perhaps a pattern after a slash. One with more than one slash does not
-- count, and neither does a pattern that makes no sense.
def ofSetting (program setting : String) : Log :=
  match Text.split '/' setting.toList with
  | [rules] => { program, rules := Rule.parseList rules }
  | [rules, text] => { program, rules := Rule.parseList rules, pattern := Pattern.parse? text }
  | _ => { program }

-- The name of the program, or of the part of it that is about the topic.
def source (log : Log) : Option String → String
  | none => log.program
  | some topic => log.program ++ "::" ++ topic

-- The level up to which lines of the source are logged. Where no rule says otherwise, these are
-- information and what is more urgent.
def level (log : Log) (source : String) : Level :=
  ((log.rules.filter (·.covers source)).foldl Rule.prefer ⟨[], .info⟩).level

end Log

inductive Line where
  | log (topic : Option String) (level : Level) (text : String)
  | result (text : String)
deriving DecidableEq, Repr

namespace Line

-- Whether the line is to be printed.
def isWanted (log : Log) : Line → Bool
  | result _ => true
  | .log topic level text =>
    (compare level (log.level (log.source topic))).isLE &&
      log.pattern.all (·.occursIn text)

def render : Line → String
  | result text => text
  | log _ .info text => "c " ++ text
  | log _ level text => "c " ++ level.name ++ ": " ++ text

end Line
end Sentential.CommandLine
