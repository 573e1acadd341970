import Sentential.CommandLine.Decision
import Sentential.Dimacs

namespace Sentential.CommandLine

-- What a run needs of the world.
structure Host (m : Type → Type) where
  load : String → m (Except FileError String)
  input : m (Except FileError String)
  save : String → String → m (Except FileError Unit)
  freshSeed : m UInt64
  -- Prints to the standard output.
  print : String → m Unit
  -- Prints where errors go.
  complain : String → m Unit

namespace Session

variable {m : Type → Type} [Monad m]

-- A part of a run, which a complaint ends.
abbrev Part (m : Type → Type) := ExceptT Complaint m

def printLine (host : Host m) (log : Log) (line : Line) : m Unit :=
  if line.isWanted log then host.print (line.render ++ "\n") else pure ()

def info (host : Host m) (log : Log) (text : String) : Part m Unit :=
  ExceptT.lift (printLine host log (.log none .info text))

def file {α : Type} (act : m (Except FileError α)) : Part m α :=
  ExceptT.mk (return (← act).mapError .file)

-- The update that the documents make one after the other.
def mergeDocuments (u : Settings.Update) : List String →
    Except Settings.DocumentError Settings.Update
  | [] => .ok u
  | text :: texts =>
    match Settings.Update.parse text with
    | .ok v => mergeDocuments (u.merge v) texts
    | .error e => .error e

-- The settings of the file and of the command line, which has precedence.
def readSettings (host : Host m) (o : Options) : Part m Settings := do
  let texts ← match o.settingsFile with
    | some path => do pure [← file (host.load path)]
    | none => pure []
  let update ← ExceptT.mk (pure ((mergeDocuments {} (texts ++ o.settings)).mapError .document))
  ExceptT.mk (pure (((({} : Settings).apply update)).mapError .settings))

def readText (host : Host m) (log : Log) (o : Options) : Part m String :=
  match o.input with
  | some path => do
    info host log ("Reading file '" ++ path ++ "'")
    file (host.load path)
  | none => do
    info host log "Reading from stdin"
    file host.input

-- Writes the clauses of the knowledge base if there is a file for them.
def writeClauses (host : Host m) (log : Log) (o : Options) (kb : KnowledgeBase) :
    Part m Unit :=
  match o.dimacs with
  | none => pure ()
  | some path => do
    let cs := kb.conjunction.clauses
    info host log (s!"Writing {cs.length} clauses to file '" ++ path ++ "'")
    file (host.save path (Dimacs.encode cs))

-- The run up to its decision.
def decision (host : Host m) (log : Log) (o : Options) : Part m Decision := do
  let settings ← readSettings host o
  let text ← readText host log o
  let kb ← ExceptT.mk (pure ((KnowledgeBase.read text).mapError .knowledge))
  info host log s!"Read {kb.size} sentences"
  writeClauses host log o kb
  let start := settings.stream (← ExceptT.lift host.freshSeed)
  return Decision.ofOptions o settings Random.ChaCha.generator start kb

-- Runs with the options, and gives the exit code.
def runOptions (host : Host m) (log : Log) (o : Options) : m UInt32 := do
  if o.wantsHelp then
    host.print Settings.help
    return 0
  let d ← match ← (decision host log o).run with
    | .ok d => pure d
    | .error e => pure (.refuse e)
  d.lines.forM (printLine host log)
  return d.exitCode

-- Runs with the arguments, and gives the exit code.
def run (host : Host m) (log : Log) (arguments : List String) : m UInt32 :=
  match Options.parse arguments with
  | .ok o => runOptions host log o
  | .error e => do
    host.complain ("error: " ++ e.message ++ "\n")
    return 1

end Session
end Sentential.CommandLine
