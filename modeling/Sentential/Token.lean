namespace Sentential

-- A token. Only a name carries a text of its own, and the end of the input is a token too.
inductive Token where
  | finish
  | iff
  | implies
  | not
  | or
  | and
  | leftParen
  | rightParen
  | truth
  | falsity
  | name (text : String)
deriving DecidableEq, Repr, Inhabited

namespace Token

-- The keyword spelled so, or a name.
def ofWord (word : String) : Token :=
  match word with
  | "NOT" => not
  | "AND" => and
  | "OR" => or
  | "TRUE" => truth
  | "FALSE" => falsity
  | _ => name word

-- How the token is written.
def text : Token → String
  | finish => ""
  | iff => "<=>"
  | implies => "=>"
  | not => "NOT"
  | or => "OR"
  | and => "AND"
  | leftParen => "("
  | rightParen => ")"
  | truth => "TRUE"
  | falsity => "FALSE"
  | name text => text

-- How the token is referred to in a message.
def describe : Token → String
  | finish => "end of input"
  | t => "'" ++ t.text ++ "'"

end Token
end Sentential
