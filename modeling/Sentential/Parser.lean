import Sentential.Lexer
import Sentential.Sentence.Basic

namespace Sentential

-- What a parser was looking for.
inductive Expected where
  | sentence
  | rightParen
  | finish
deriving DecidableEq, Repr

namespace Expected

def describe : Expected → String
  | sentence => "a sentence"
  | rightParen => "')'"
  | finish => "end of input"

end Expected

-- Why a text is no sentence.
inductive ParseError where
  | lexical (e : LexError)
  | unexpectedToken (position : Nat) (found : Token) (expected : Expected)
deriving DecidableEq, Repr

namespace ParseError

def message : ParseError → String
  | lexical e => e.message
  | unexpectedToken position found expected =>
    s!"position {position}: Unexpected " ++ found.describe ++ ", expected " ++ expected.describe

end ParseError

namespace Parser

-- The outcome of reading from `l`, and the lexer afterwards, which is no farther from the end.
structure Step (l : Lexer) (α : Type) where
  result : Except ParseError α
  lexer : Lexer
  le : lexer.remaining ≤ l.remaining

namespace Step

variable {l : Lexer} {α β : Type}

-- The step read `x` and left the lexer at `l'`.
structure Yields (s : Step l α) (x : α) (l' : Lexer) : Prop where
  result : s.result = .ok x
  lexer : s.lexer = l'

theorem Yields.le {s : Step l α} {x : α} {l' : Lexer} (h : s.Yields x l') :
    l'.remaining ≤ l.remaining :=
  h.lexer ▸ s.le

def pure (x : α) (l : Lexer) : Step l α where
  result := .ok x
  lexer := l
  le := Nat.le_refl _

def fail (e : ParseError) (l : Lexer) : Step l α where
  result := .error e
  lexer := l
  le := Nat.le_refl _

-- Goes on with `f` where the step leaves off, unless it failed.
def andThen (s : Step l α) (f : (x : α) → (l' : Lexer) → s.Yields x l' → Step l' β) : Step l β :=
  match h : s.result with
  | .error e => ⟨.error e, s.lexer, s.le⟩
  | .ok x =>
    let t := f x s.lexer ⟨h, rfl⟩
    ⟨t.result, t.lexer, Nat.le_trans t.le s.le⟩

end Step

-- What the lexer says, as an outcome of the parser.
def ofLexer {α : Type} : Except LexError α → Except ParseError α
  | .ok x => .ok x
  | .error e => .error (.lexical e)

theorem ofLexer_eq_ok {α : Type} {r : Except LexError α} {x : α} :
    ofLexer r = .ok x ↔ r = .ok x := by
  cases r
  case ok y => exact ⟨fun h => Except.ok.inj h ▸ rfl, fun h => Except.ok.inj h ▸ rfl⟩
  case error e => exact iff_of_false nofun nofun

def token (l : Lexer) : Step l Token where
  result := ofLexer l.next.1
  lexer := l.next.2
  le := l.remaining_next_le

theorem token_lt {l l' : Lexer} {t : Token} (h : (token l).Yields t l') (ht : t ≠ .finish) :
    l'.remaining < l.remaining := by
  obtain ⟨hr, rfl⟩ := h
  exact Lexer.remaining_next_lt (ofLexer_eq_ok.mp hr) ht

-- Complains about the token last read.
def unexpected {α : Type} (found : Token) (expected : Expected) (l : Lexer) : Step l α :=
  .fail (.unexpectedToken l.tokenStart found expected) l

-- Reads one particular token.
def expect (t : Token) (expected : Expected) (l : Lexer) : Step l Unit :=
  (token l).andThen fun found l' _ =>
    if found = t then .pure () l' else unexpected found expected l'

-- The binary connective that the token is.
def connective? : Token → Option Connective
  | .and => some .and
  | .or => some .or
  | .implies => some .implies
  | .iff => some .iff
  | _ => none

theorem ne_finish_of_connective? {t : Token} {c : Connective} (h : connective? t = some c) :
    t ≠ .finish :=
  fun e => nomatch e ▸ h

-- Reads a binary connective if one follows, and otherwise nothing.
def connective (l : Lexer) : Step l (Option Connective) :=
  match l.mark.next.1 with
  | .error e => ⟨.error (.lexical e), l.mark.next.2, l.mark.remaining_next_le⟩
  | .ok t =>
    match connective? t with
    | some c => ⟨.ok (some c), l.mark.next.2, l.mark.remaining_next_le⟩
    | none =>
      let back := l.mark.next.2.rollback
      ⟨(ofLexer back.1).map fun _ => none, back.2, Nat.le_refl _⟩

theorem connective_lt {l l' : Lexer} {c : Connective} (h : (connective l).Yields (some c) l') :
    l'.remaining < l.remaining := by
  obtain ⟨hr, rfl⟩ := h
  unfold connective at hr ⊢
  split at hr
  case h_1 => exact nomatch hr
  case h_2 t ht =>
    split at hr
    case h_1 d hd =>
      exact Lexer.remaining_next_lt ht (ne_finish_of_connective? hd)
    case h_2 => exact nomatch hr

mutual

-- Reads one sentence, and leaves what follows it unread. Connectives have no precedence: a chain of them
-- nests to the right, and a negation takes the whole sentence after it.
def sentence (l : Lexer) : Step l Sentence :=
  (token l).andThen fun t l₁ ht =>
    match t, ht with
    | .leftParen, ht =>
      have := token_lt ht nofun
      (sentence l₁).andThen fun s l₂ hs =>
        (expect .rightParen .rightParen l₂).andThen fun _ l₃ he =>
          have := hs.le
          have := he.le
          continued s l₃
    | .not, ht =>
      have := token_lt ht nofun
      (sentence l₁).andThen fun s l₂ hs =>
        have := hs.le
        continued (.not s) l₂
    | .truth, ht =>
      have := token_lt ht nofun
      continued .truth l₁
    | .falsity, ht =>
      have := token_lt ht nofun
      continued .falsity l₁
    | .name n, ht =>
      have := token_lt ht nofun
      continued (.var ⟨n⟩) l₁
    | t, _ => unexpected t .sentence l₁
termination_by l.remaining

-- Joins the sentence just read with the one after a connective, if a connective follows.
def continued (left : Sentence) (l : Lexer) : Step l Sentence :=
  (connective l).andThen fun c l₁ hc =>
    match c, hc with
    | some c, hc =>
      have := connective_lt hc
      (sentence l₁).andThen fun right l₂ _ => .pure (c.join left right) l₂
    | none, _ => .pure left l₁
termination_by l.remaining

end

-- Reads one sentence and the end of the text.
def complete (l : Lexer) : Step l Sentence :=
  (sentence l).andThen fun s l₁ _ =>
    (expect .finish .finish l₁).andThen fun _ l₂ _ => .pure s l₂

end Parser

-- Reads a text that is one sentence.
def Sentence.parse (text : String) : Except ParseError Sentence :=
  (Parser.complete (.ofString text)).result

end Sentential
