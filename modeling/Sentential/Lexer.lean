import Sentential.Text.Word
import Sentential.Token

namespace Sentential

-- Why there is no next token.
inductive LexError where
  | unexpectedCharacter (position : Nat) (found : Char)
  | unexpectedEnd (position : Nat) (expected : Char)
  -- There is no place to go back to.
  | noMark
deriving DecidableEq, Repr

namespace LexError

def message : LexError → String
  | unexpectedCharacter position found =>
    s!"position {position}: Unexpected character '" ++ found.toString ++ "'"
  | unexpectedEnd position expected =>
    s!"position {position}: Unexpected end of input, expected '" ++ expected.toString ++ "'"
  | noMark => "Attempt to rollback with no mark"

end LexError

namespace Text

-- The number of bytes of a text in UTF-8.
def byteSize : List Char → Nat
  | [] => 0
  | c :: cs => c.utf8Size + byteSize cs

end Text

open Text

-- A place in a text: how many bytes lie before it and what follows.
structure Cursor where
  offset : Nat
  rest : List Char
deriving DecidableEq, Repr

namespace Cursor

-- Skips the characters up to the first one that fails the test.
def skipWhile (p : Char → Bool) (c : Cursor) : Cursor where
  offset := c.offset + byteSize (c.rest.takeWhile p)
  rest := c.rest.dropWhile p

-- Reads the remaining characters of a symbol.
def finishSymbol (t : Token) : List Char → Cursor → Except LexError Token × Cursor
  | [], c => (.ok t, c)
  | x :: xs, c =>
    match c.rest with
    | [] => (.error (.unexpectedEnd c.offset x), c)
    | y :: rest =>
      let next := ⟨c.offset + y.utf8Size, rest⟩
      if y = x then finishSymbol t xs next
      else (.error (.unexpectedCharacter c.offset y), next)

-- Reads the token that starts right at the cursor.
def scan (c : Cursor) : Except LexError Token × Cursor :=
  match c.rest with
  | [] => (.ok .finish, c)
  | x :: rest =>
    let next : Cursor := ⟨c.offset + x.utf8Size, rest⟩
    if x = '<' then next.finishSymbol .iff ['=', '>']
    else if x = '=' then next.finishSymbol .implies ['>']
    else if x = '(' then (.ok .leftParen, next)
    else if x = ')' then (.ok .rightParen, next)
    else if isLetter x then
      (.ok (.ofWord (String.ofList (x :: rest.takeWhile isWordChar))), next.skipWhile isWordChar)
    else (.error (.unexpectedCharacter c.offset x), next)

theorem skipWhile_rest_length_le (p : Char → Bool) (c : Cursor) :
    (c.skipWhile p).rest.length ≤ c.rest.length :=
  (List.dropWhile_suffix p).length_le

theorem finishSymbol_rest_length_le (t : Token) (xs : List Char) (c : Cursor) :
    (finishSymbol t xs c).2.rest.length ≤ c.rest.length := by
  induction xs generalizing c
  case nil => exact Nat.le_refl _
  case cons x xs ih =>
    rw [finishSymbol]
    split
    case h_1 => exact Nat.le_refl _
    case h_2 y rest h =>
      rw [h, List.length_cons]
      dsimp only
      split
      case isTrue => exact Nat.le_succ_of_le (ih _)
      case isFalse => exact Nat.le_succ _

-- Where there is anything left to read, reading consumes some of it.
theorem scan_rest_length_lt {c : Cursor} (h : c.rest ≠ []) :
    c.scan.2.rest.length < c.rest.length := by
  rw [scan]
  split
  case h_1 e => exact absurd e h
  case h_2 x rest e =>
    rw [e, List.length_cons, Nat.lt_succ_iff]
    dsimp only
    repeat' split
    · exact finishSymbol_rest_length_le _ _ _
    · exact finishSymbol_rest_length_le _ _ _
    · exact Nat.le_refl _
    · exact Nat.le_refl _
    · exact skipWhile_rest_length_le _ _
    · exact Nat.le_refl _

theorem scan_eq_finish {c : Cursor} (h : c.rest = []) : c.scan = (.ok .finish, c) := by
  rw [scan, h]

end Cursor

-- A text being read: the place reached, where the last token started, and the remembered place.
structure Lexer where
  cursor : Cursor
  tokenStart : Nat
  marked : Option Cursor
deriving DecidableEq, Repr

namespace Lexer

def ofString (text : String) : Lexer where
  cursor := ⟨0, text.toList⟩
  tokenStart := 0
  marked := none

-- The number of characters still to be read.
def remaining (l : Lexer) : Nat :=
  l.cursor.rest.length

def mark (l : Lexer) : Lexer :=
  { l with marked := some l.cursor }

def rollback (l : Lexer) : Except LexError Unit × Lexer :=
  match l.marked with
  | some c => (.ok (), { l with cursor := c })
  | none => (.error .noMark, l)

-- Reads the next token, which at the end of the text is `Token.finish`. After an error reading goes on
-- behind all that was looked at, the offending character included.
def next (l : Lexer) : Except LexError Token × Lexer :=
  let start := l.cursor.skipWhile isBlank
  let (result, cursor) := start.scan
  (result, { l with cursor, tokenStart := start.offset })

theorem remaining_next_le (l : Lexer) : l.next.2.remaining ≤ l.remaining := by
  have hs := Cursor.skipWhile_rest_length_le isBlank l.cursor
  by_cases h : (l.cursor.skipWhile isBlank).rest = []
  case pos => simpa [next, remaining, Cursor.scan_eq_finish h] using hs
  case neg => exact Nat.le_trans (Nat.le_of_lt (Cursor.scan_rest_length_lt h)) hs

-- A token other than the end of the text uses some of it up.
theorem remaining_next_lt {l : Lexer} {t : Token} (h : l.next.1 = .ok t) (ht : t ≠ .finish) :
    l.next.2.remaining < l.remaining := by
  have hs := Cursor.skipWhile_rest_length_le isBlank l.cursor
  by_cases hr : (l.cursor.skipWhile isBlank).rest = []
  case pos =>
    simp only [next, Cursor.scan_eq_finish hr] at h
    injection h with h
    exact absurd h.symm ht
  case neg => exact Nat.lt_of_lt_of_le (Cursor.scan_rest_length_lt hr) hs

-- Reads tokens up to the end of the text, each with the place where it starts, or up to the first
-- error.
def tokens (l : Lexer) : List (Token × Nat) × Option LexError :=
  match h : l.next.1 with
  | .error e => ([], some e)
  | .ok t =>
    if ht : t = .finish then ([(t, l.next.2.tokenStart)], none)
    else
      have := remaining_next_lt h ht
      let (ts, e) := l.next.2.tokens
      ((t, l.next.2.tokenStart) :: ts, e)
termination_by l.remaining

end Lexer
end Sentential
