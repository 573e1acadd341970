import Sentential.Algorithm
import Sentential.Clause.Basic
import Sentential.Clause.Printer
import Sentential.Clause.Resolution
import Sentential.Clause.Scope
import Sentential.CommandLine.Decision
import Sentential.CommandLine.Log
import Sentential.CommandLine.Options
import Sentential.CommandLine.Session
import Sentential.CommandLine.Verdict
import Sentential.Decimal.Binary
import Sentential.Decimal.Reader
import Sentential.Decimal.Shortest
import Sentential.Dimacs
import Sentential.Dimacs.Reader
import Sentential.Dpll
import Sentential.Entailment
import Sentential.Event
import Sentential.Grammar
import Sentential.Horn.Basic
import Sentential.Horn.Chaining
import Sentential.Horn.Index
import Sentential.Keyed
import Sentential.Kleene
import Sentential.KnowledgeBase.Basic
import Sentential.KnowledgeBase.Reader
import Sentential.Lexer
import Sentential.Literal
import Sentential.Main
import Sentential.Model.Basic
import Sentential.Model.Printer
import Sentential.NormalForm.Basic
import Sentential.NormalForm.Shape
import Sentential.Ordered
import Sentential.Parser
import Sentential.Pattern.Basic
import Sentential.Pattern.CharSet
import Sentential.Pattern.Reader
import Sentential.Precondition
import Sentential.Proofs.Agenda
import Sentential.Proofs.Canonical
import Sentential.Proofs.Chaining
import Sentential.Proofs.Chains
import Sentential.Proofs.Closure
import Sentential.Proofs.Decision
import Sentential.Proofs.Dimacs
import Sentential.Proofs.Dpll
import Sentential.Proofs.Draw
import Sentential.Proofs.Entailment
import Sentential.Proofs.Evaluation
import Sentential.Proofs.Flips
import Sentential.Proofs.Forced
import Sentential.Proofs.Gathering
import Sentential.Proofs.Grammar
import Sentential.Proofs.Horn
import Sentential.Proofs.Kleene
import Sentential.Proofs.Lexeme
import Sentential.Proofs.Lexing
import Sentential.Proofs.Lines
import Sentential.Proofs.Lookahead
import Sentential.Proofs.NormalForm
import Sentential.Proofs.ParseErrors
import Sentential.Proofs.Parsing
import Sentential.Proofs.Printing
import Sentential.Proofs.Probability
import Sentential.Proofs.Reading
import Sentential.Proofs.Resolution
import Sentential.Proofs.Resolvents
import Sentential.Proofs.Saturation
import Sentential.Proofs.Settings
import Sentential.Proofs.Splitting
import Sentential.Proofs.Tiling
import Sentential.Proofs.TruthTable
import Sentential.Proofs.Viability
import Sentential.Proofs.Visiting
import Sentential.Proofs.WalkSat
import Sentential.Random.ChaCha
import Sentential.Random.Generator
import Sentential.Random.Script
import Sentential.Saturation
import Sentential.Sentence.Basic
import Sentential.Sentence.Printer
import Sentential.Settings.Basic
import Sentential.Settings.Document
import Sentential.Settings.Number
import Sentential.Text.Blank
import Sentential.Text.CodeRange
import Sentential.Text.Digit
import Sentential.Text.Joiner
import Sentential.Text.Letter
import Sentential.Text.Lines
import Sentential.Text.Numeral
import Sentential.Text.Word
import Sentential.Token
import Sentential.TruthTable
import Sentential.Valuation
import Sentential.Var
import Sentential.VarMap
import Sentential.VarSet
import Sentential.WalkSat
