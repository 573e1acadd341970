import Sentential.CommandLine.Log
import Sentential.CommandLine.Options
import Sentential.CommandLine.Verdict
import Sentential.Entailment
import Sentential.KnowledgeBase.Reader
import Sentential.Settings.Document

namespace Sentential.CommandLine

-- Why a file cannot be used.
inductive FileError where
  | notFound
  | permissionDenied
  | notDirectory
  | isDirectory
  | nameTooLong
  | notText
  | other (message : String)
deriving DecidableEq, Repr

namespace FileError

def message : FileError → String
  | notFound => "No such file or directory (os error 2)"
  | permissionDenied => "Permission denied (os error 13)"
  | notDirectory => "Not a directory (os error 20)"
  | isDirectory => "Is a directory (os error 21)"
  | nameTooLong => "File name too long (os error 36)"
  | notText => "stream did not contain valid UTF-8"
  | other message => message

end FileError

-- Why a run comes to no verdict.
inductive Complaint where
  | file (e : FileError)
  | document (e : Settings.DocumentError)
  | settings (e : Precondition)
  | knowledge (e : KnowledgeBase.LineError)
  | failure (e : Failure)
  -- The random walk cannot decide entailment.
  | walkSatQuery
  -- The engine cannot search models.
  | noModelSearch (engine : Engine)
  -- A random draw did not come to an end.
  | unfinishedDraw
deriving Repr

namespace Complaint

-- What is wrong and why. That a query cannot be read is a message that ends with its cause, and the
-- cause is given once more.
def message : Complaint → String
  | file e => e.message
  | document e => e.message
  | settings e => e.message
  | knowledge e => e.message
  | failure (.parse e) => (Failure.parse e).message ++ ": " ++ e.message
  | failure e => e.message
  | walkSatQuery => "WalkSAT cannot decide entailment, use one of tt, resolution, fc or dpll"
  | noModelSearch engine =>
    "Satisfiability needs dpll or walksat, use --query to decide entailment with " ++ engine.name
  | unfinishedDraw => "A random draw did not come to an end"

end Complaint

-- The lines of a run up to its verdict, and the verdict.
structure Decision where
  log : List Line
  verdict : Except Complaint Verdict

namespace Decision

def refuse (e : Complaint) : Decision :=
  ⟨[], .error e⟩

-- What is to be printed: the log, and then the verdict or why there is none.
def lines (d : Decision) : List Line :=
  d.log ++ match d.verdict with
    | .ok v => v.lines.map .result
    | .error e => [.log none .error e.message]

def exitCode (d : Decision) : UInt32 :=
  match d.verdict with
  | .ok v => v.exitCode
  | .error _ => 1

def eventLines (es : List Event) : List Line :=
  es.map fun e => .log (some e.topic) .debug e.message

-- Decides whether the knowledge base entails the query.
def entailment (kb : KnowledgeBase) (query : String) : Engine → Decision
  | .walkSat => refuse .walkSatQuery
  | .deciding a =>
    let answer := kb.entailsText query a
    { log := .log none .info ("Deciding entailment of '" ++ query ++ "' using " ++ a.name) ::
        eventLines answer.events
      verdict := (answer.value.mapError Complaint.failure).map fun b =>
        if b then .entailed else .notEntailed }

variable {σ : Type}

-- Searches a model of the knowledge base.
def satisfiability (kb : KnowledgeBase) (settings : Settings) (g : Random.Generator σ) (start : σ) :
    Engine → Decision
  | .deciding .dpll =>
    let found := Dpll.findModel kb.conjunction
    { log := eventLines found.events
      verdict := .ok (found.value.elim .unsatisfiable .satisfiable) }
  | .walkSat =>
    let line := Line.log none .info s!"Searching a model with at most {settings.maxFlips} flips"
    match settings.search g start kb.conjunction with
    | none => ⟨[line], .error .unfinishedDraw⟩
    | some (.error e, _) => ⟨[line], .error (.settings e)⟩
    | some (.ok found, _) =>
      ⟨line :: eventLines found.events, .ok (found.value.elim .unknown .satisfiable)⟩
  | engine => refuse (.noModelSearch engine)

def ofOptions (o : Options) (settings : Settings) (g : Random.Generator σ) (start : σ)
    (kb : KnowledgeBase) : Decision :=
  match o.query with
  | some query => entailment kb query (o.engine.getD (.deciding .truthTable))
  | none => satisfiability kb settings g start (o.engine.getD (.deciding .dpll))

end Decision
end Sentential.CommandLine
